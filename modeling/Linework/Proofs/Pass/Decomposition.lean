import Linework.Proofs.Pass.Figure

/-!
# `Linework.Proofs.Pass.Decomposition`: a pass, figure by figure

What a pass of the built-in registry draws is the framed row of its figures. `readFigures` reads
the figures of a script, and `travelled` adds up how far they go. A figure begins where those
before it end, so its block of drawing operations takes nothing but two of these sums.

`traceLines_decomposes` says so of lines that begin at any plain position, by induction along
them, and `runPass_decomposes` of a whole pass. Together they describe the pass with no cursor
carried from line to line.
-/

set_option autoImplicit false

namespace Linework

/-- The figures of lines, up to the first line that nothing can be read from. -/
def readFigures : List Line → List Figure
  | [] => []
  | line :: rest =>
    match line.figure? with
    | some f => f :: readFigures rest
    | none => []

/-- Where figures end, the first of which begins at a position: the steps added up from the
left. -/
def travelledFrom (start : Cursor) (figures : List Figure) : Cursor :=
  (figures.filterMap Figure.step?).foldl Cursor.moved start

/-- Where the figures of a pass end. -/
def travelled (figures : List Figure) : Cursor := travelledFrom .origin figures

/-- The blocks of figures, the first of which begins at a position. -/
def blocksFrom (view : Viewport) (look : String → Option EntryState) (start : Cursor)
    (figures : List Figure) : List (List DrawOp) :=
  figures.mapIdx fun i f =>
    f.block view (travelledFrom start (figures.take i)) (travelledFrom start (figures.take (i + 1)))
      look

/-- Whether the operation begins or ends the path. -/
def DrawOp.framesPath : DrawOp → Bool
  | clear => true
  | moveTo _ _ => true
  | stroke => true
  | _ => false

/-- Figures end where the ones after the first end, if those begin where the first ends. -/
theorem travelledFrom_cons (start : Cursor) (f : Figure) (rest : List Figure) :
    travelledFrom start (f :: rest) = travelledFrom (f.target start) rest := by
  unfold travelledFrom Figure.target
  cases h : f.step? with
  | none => rw [List.filterMap_cons_none h]
  | some step => rw [List.filterMap_cons_some h, List.foldl_cons]

/-- The blocks of figures are that of the first and then those of the others, begun where it
ends. -/
theorem blocksFrom_cons (view : Viewport) (look : String → Option EntryState) (start : Cursor)
    (f : Figure) (rest : List Figure) :
    blocksFrom view look start (f :: rest)
      = f.block view start (f.target start) look :: blocksFrom view look (f.target start) rest := by
  simp only [blocksFrom, List.mapIdx_cons, List.take_succ_cons, travelledFrom_cons]
  rfl

/-- A block draws within the frame. -/
theorem Figure.framesPath_block (f : Figure) (view : Viewport) (start stop : Cursor)
    (look : String → Option EntryState) {op : DrawOp} (h : op ∈ f.block view start stop look) :
    op.framesPath = false := by
  cases f with
  | blank => cases h
  | straight step =>
    rw [block, List.mem_singleton] at h
    rw [h]
    rfl
  | bent step radius flip =>
    simp only [block, List.mem_cons, List.not_mem_nil, or_false] at h
    rcases h with rfl | rfl <;> rfl
  | picture url spot =>
    simp only [block] at h
    split at h
    · rw [List.mem_singleton] at h
      rw [h]
      rfl
    · cases h

/-- All blocks together draw within the frame. -/
theorem framesPath_blocksFrom (view : Viewport) (look : String → Option EntryState)
    (start : Cursor) (figures : List Figure) {op : DrawOp}
    (h : op ∈ (blocksFrom view look start figures).flatten) : op.framesPath = false := by
  obtain ⟨block, among, drawn⟩ := List.mem_flatten.mp h
  obtain ⟨i, hi, rfl⟩ := List.mem_mapIdx.mp among
  exact Figure.framesPath_block _ view _ _ look drawn

/-! ## Going through lines -/

/-- How lines end, the first of which is line `number` of its script, when so many of them have
been read as figures. -/
def verdictOf (number : Nat) (lines : List Line) (read : Nat) : Verdict :=
  if read = lines.length then .completed else .halted (number + read)

/-- A trace is what the figures of its lines come to. -/
structure Trace.Shows (t : Trace) (view : Viewport) (look : String → Option EntryState)
    (number : Nat) (lines : List Line) (start : Cursor) (figures : List Figure) : Prop where
  ops : t.ops = (blocksFrom view look start figures).flatten
  cursor : t.cursor = travelledFrom start figures
  hints : ∀ (i : Nat) f, figures[i]? = some f →
    t.hints[i]? = some (f.hint (travelledFrom start (figures.take (i + 1))) look)
  verdict : t.verdict = verdictOf number lines figures.length

namespace Trace.Shows

variable {view : Viewport} {look : String → Option EntryState} {number : Nat} {lines : List Line}
  {start : Cursor} {figures : List Figure}

/-- Where no line is left nothing is drawn, and the cursor stays. -/
theorem done (cache : Cache) : (Trace.done start cache).Shows view look number [] start [] :=
  ⟨rfl, rfl, fun _ _ h => (by simp at h), rfl⟩

/-- A line that fails shows nothing of its own, and of the lines behind it nothing is read. -/
theorem failed (line : Line) (hint : String) (cache : Cache) :
    (Trace.failed number hint start cache).Shows view look number (line :: lines) start [] :=
  ⟨rfl, rfl, fun _ _ h => (by simp at h), by simp [verdictOf, Trace.failed]⟩

/-- A line that draws its figure comes before what the other lines show. -/
theorem after {t : Trace} {f : Figure}
    (h : t.Shows view look (number + 1) lines (f.target start) figures) (line : Line) (cache : Cache) :
    (Trace.after ⟨f.hint (f.target start) look, f.target start,
        f.block view start (f.target start) look, cache⟩ t).Shows
      view look number (line :: lines) start (f :: figures) where
  ops := by rw [Trace.ops_after, h.ops, blocksFrom_cons, List.flatten_cons]
  cursor := h.cursor.trans (travelledFrom_cons start f figures).symm
  hints := by
    intro i g found
    rw [Trace.hints_after, List.take_succ_cons, travelledFrom_cons]
    cases i with
    | zero =>
      cases found
      rfl
    | succ i => exact h.hints i g found
  verdict := by
    show t.verdict = _
    simp only [h.verdict, verdictOf, List.length_cons, Nat.add_right_cancel_iff]
    congr 2
    omega

end Trace.Shows

/-- Going through lines from a plain position comes to what their figures come to. -/
theorem Registry.traceLines_decomposes (view : Viewport) (number : Nat) (lines : List Line)
    {start : Cursor} (plain : start.Plain) (cache : Cache) :
    (builtinRegistry.traceLines view number lines start cache).Shows view cache.get? number lines
      start (readFigures lines) := by
  -- The induction is on the lines. Each begins at the plain position where the one before it
  -- ended.
  induction lines generalizing number start cache with
  | nil => exact .done cache
  | cons line rest ih =>
    have fails := (builtinRegistry.deed line).fails_eq
    rw [traceLines_cons, readFigures]
    cases read : line.figure? with
    | none =>
      rw [figure?_deed, read, Option.isNone_none] at fails
      rw [if_pos fails]
      exact .failed line _ cache
    | some f =>
      rw [figure?_deed, read, Option.isNone_some] at fails
      have drawn := (figure?_deed line).trans read
      -- What the line asks for has no entry yet, so the lines after it see the same pictures.
      have others := ih (number + 1) (f.plain_target plain)
        (cache.requestAll (builtinRegistry.deed line).url?.toList)
      rw [Cache.look_requestAll] at others
      simp only [fails, Bool.false_eq_true, if_false,
        Figure.hint_eq_of_figure? drawn plain, Figure.target_eq_of_figure? drawn plain,
        Figure.block_eq_of_figure? drawn plain]
      exact others.after line _

/-! ## A whole pass -/

/-- A pass of the built-in registry draws the blocks of its figures in order, within the frame of
the path and with nothing else. A stretch of the path ends at the sum of all steps up to its own,
taken from the left and from the origin. That sum is the hint of its line, and over all figures it
is where the pass leaves the cursor. The pass completes if every line has a figure, and it halts
at the first that has none. -/
theorem runPass_decomposes (view : Viewport) (script : String) (cache : Cache) (generation : Nat) :
    let lines := readScript script
    let figures := readFigures lines
    let blocks := figures.mapIdx fun i f =>
      f.block view (travelled (figures.take i)) (travelled (figures.take (i + 1))) cache.get?
    let pass := runPass builtinRegistry view script cache generation
    pass.ops = .clear :: .moveTo view.panX view.panY :: (blocks.flatten ++ [.stroke]) ∧
      (∀ op ∈ blocks.flatten, op.framesPath = false) ∧
      pass.report.cursor = travelled figures ∧
      (∀ (i : Nat) f, figures[i]? = some f → pass.report.hints[i]? =
        some (f.hint (travelled (figures.take (i + 1))) cache.get?)) ∧
      pass.report.verdict = verdictOf 1 lines figures.length := by
  intro lines figures blocks pass
  have shows := Registry.traceLines_decomposes view 1 lines Cursor.plain_origin cache
  refine ⟨?_, ?_, shows.cursor, shows.hints, shows.verdict⟩
  · show DrawOp.clear :: .moveTo view.panX view.panY :: (_ ++ [.stroke]) = _
    rw [shows.ops]
    rfl
  · intro op drawn
    exact framesPath_blocksFrom view cache.get? .origin figures drawn

end Linework
