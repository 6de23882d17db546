import Linework.Proofs.Command.Fitting
import Linework.Proofs.Pass.Alignment
import Linework.Proofs.Text.Cutting

/-!
# `Linework.Proofs.Pass.Halting`: what a line that fails leaves behind

A line works on a sheet in steps and may break off between them, and nothing takes back what was
done by then. It need not: an action reads all that it can lack before it moves the cursor, draws
or asks for a picture, so what breaks off has done nothing (`Registry.sheet_of_error`). This holds
for any parameters that a command is checked against, also where they do not fit its action and
the action itself finds something missing.

So a pass that halts has done what the lines before the halt do, and no more. `Verdict.passed` are
these lines, and `Registry.traceLines_takeWhile` compares going through all lines with going
through these alone. `failure_leaves_no_trace` says it of the script and its first lines.
-/

set_option autoImplicit false

namespace Linework

/-! ## One line -/

/-- Work that takes a sheet where an outcome says leaves it alone when it breaks off. -/
theorem Sheet.eq_of_after_eq_error {ε : Type} {sheet after : Sheet} {outcome : Except ε Effect}
    {problem : ε} (broken : sheet.after outcome = .error problem after) : after = sheet := by
  cases outcome with
  | ok effect => cases broken
  | error other =>
    cases broken
    rfl

/-- A command that fails leaves the sheet as it was, whatever its parameters and whatever is on
the sheet. -/
theorem Command.sheet_of_error {c : Command} {tokens : List String} {view : Viewport}
    {sheet after : Sheet} {hint : String}
    (broken : (c.work tokens view).run sheet = .error hint after) : after = sheet := by
  rw [c.run_work] at broken
  exact Sheet.eq_of_after_eq_error broken

/-- So does any line that fails. -/
theorem Registry.sheet_of_error {r : Registry} {view : Viewport} {line : Line}
    {sheet after : Sheet} {hint : String}
    (broken : (r.work view line).run sheet = .error hint after) : after = sheet := by
  rw [r.run_work] at broken
  exact Sheet.eq_of_after_eq_error broken

/-! ## The lines before a halt -/

/-- The lines that a pass with this verdict got past: all of them, or those before the line at
which it halted. -/
def Verdict.passed (v : Verdict) (lines : List Line) : List Line :=
  match v with
  | completed => lines
  | halted line => lines.take (line - 1)

namespace Registry

variable (r : Registry) (view : Viewport)

/-- A pass gets past the lines before the first that fails. -/
theorem passed_traceLines (lines : List Line) (cursor : Cursor) (cache : Cache) :
    (r.traceLines view 1 lines cursor cache).verdict.passed lines
      = lines.takeWhile fun line => !(r.deed line).fails := by
  rw [r.verdict_traceLines_eq view 0]
  cases found : lines.findIdx? fun line => (r.deed line).fails with
  | none =>
    show lines = _
    rw [List.findIdx?_eq_none_iff] at found
    rw [eq_comm, List.takeWhile_eq_self_iff]
    intro line among
    simp [found line among]
  | some i =>
    show lines.take (0 + i + 1 - 1) = _
    obtain ⟨-, first⟩ := List.findIdx?_eq_some_iff_findIdx_eq.mp found
    simp [List.takeWhile_eq_take_findIdx_not, first]

/-- Going through the lines before the first that fails comes to the end, and does all that going
through the other lines as well does, but for the hint of the line that fails. -/
theorem traceLines_takeWhile (number : Nat) (lines : List Line) (cursor : Cursor) (cache : Cache) :
    let whole := r.traceLines view number lines cursor cache
    let first := r.traceLines view number (lines.takeWhile fun line => !(r.deed line).fails)
      cursor cache
    first.verdict = .completed ∧ first.cursor = whole.cursor ∧ first.ops = whole.ops ∧
      first.cache = whole.cache ∧
      (whole.verdict = .completed ∨ ∃ hint, whole.hints = first.hints ++ [hint]) := by
  induction lines generalizing number cursor cache with
  | nil => exact ⟨rfl, rfl, rfl, rfl, .inl rfl⟩
  | cons line rest ih =>
    rw [List.takeWhile_cons, traceLines_cons]
    by_cases hf : (r.deed line).fails = true
    · rw [if_pos hf, if_neg (by simp [hf])]
      -- No line comes before this one, and this one leaves everything as it is.
      exact ⟨rfl, rfl, rfl, rfl, .inr ⟨_, rfl⟩⟩
    · rw [if_neg hf, if_pos (by simp [hf]), traceLines_cons, if_neg hf]
      intro whole first
      obtain ⟨completed, same, drawn, asked, hints⟩ := ih (number + 1) ((r.deed line).target cursor)
        (cache.requestAll (r.deed line).url?.toList)
      refine ⟨completed, same, ?_, asked, hints.imp_right ?_⟩
      · show _ ++ _ = _ ++ _
        rw [drawn]
      · rintro ⟨hint, last⟩
        refine ⟨hint, ?_⟩
        show _ :: _ = _ :: _ ++ _
        rw [last, List.cons_append]

end Registry

/-! ## The first lines of a script -/

/-- The first lines of a script, as a script of their own, are read as they are in the whole. -/
theorem readScript_firstLines {n : Nat} (some : 0 < n) (script : String) :
    readScript (Text.firstLines n script) = (readScript script).take n := by
  rw [readScript, Text.lines_firstLines some, List.map_take, readScript]

/-- A command that fails, by its check or in its action, leaves the cursor, what was drawn and the
pictures as they are, whatever its parameters, and so does any line that fails. So what a pass has
done when it halts at a line after the first is what a pass over the lines before that line does,
which completes. -/
theorem failure_leaves_no_trace :
    (∀ (c : Command) (tokens : List String) (view : Viewport) (sheet after : Sheet) (hint : String),
      (c.work tokens view).run sheet = .error hint after → after = sheet) ∧
    ∀ (r : Registry) (view : Viewport),
      (∀ (line : Line) (sheet after : Sheet) (hint : String),
        (r.work view line).run sheet = .error hint after → after = sheet) ∧
      ∀ (script : String) (cache : Cache) (generation n : Nat),
        let pass := runPass r view script cache generation
        let first := runPass r view (Text.firstLines (n - 1) script) cache generation
        pass.report.verdict = .halted n → 1 < n →
        first.report.verdict = .completed ∧ first.report.lines = n - 1 ∧
          first.report.cursor = pass.report.cursor ∧ first.ops = pass.ops ∧
          first.cache = pass.cache ∧ ∃ hint, pass.report.hints = first.report.hints ++ [hint] := by
  refine ⟨fun c tokens view sheet after hint => Command.sheet_of_error, fun r view =>
    ⟨fun line sheet after hint => Registry.sheet_of_error, ?_⟩⟩
  intro script cache generation n pass first halted later
  have verdict : (r.traceLines view 1 (readScript script) .origin cache).verdict = .halted n :=
    halted
  -- The lines before the halt are the lines before the first that fails.
  have lines : readScript (Text.firstLines (n - 1) script)
      = (readScript script).takeWhile fun line => !(r.deed line).fails := by
    rw [readScript_firstLines (by omega), ← r.passed_traceLines view _ .origin cache, verdict]
    rfl
  obtain ⟨completed, cursor, ops, asked, hints⟩ :=
    r.traceLines_takeWhile view 1 (readScript script) .origin cache
  rw [← lines] at completed cursor ops asked hints
  -- The verdict names a line of the script.
  have enough : n ≤ (readScript script).length := by
    rcases r.verdict_traceLines view 0 (readScript script) .origin cache with whole | stopped
    · rw [verdict] at whole
      cases whole.1
    · have same := verdict.symm.trans stopped.1
      simp only [Verdict.halted.injEq] at same
      omega
  refine ⟨completed, ?_, cursor, ?_, asked, ?_⟩
  · show (readScript (Text.firstLines (n - 1) script)).length = n - 1
    rw [readScript_firstLines (by omega), List.length_take]
    omega
  · show _ :: _ :: (_ ++ _) = _ :: _ :: (_ ++ _)
    rw [ops]
  · rcases hints with whole | last
    · rw [verdict] at whole
      cases whole
    · exact last

/-- A curve whose parameters do not fit: its action needs a radius that is no parameter. -/
def radiuslessArc : Command where
  name := "arc"
  aliases := []
  description := ""
  required := [.plain "x" .number, .plain "y" .number]
  optional := []
  action := .arc

/-- The curve's action finds no radius and leaves a sheet alone that has something on it. A pass
that halts there has moved as far and asked for as much as the two lines before it. -/
theorem failure_leaves_no_trace_of_radiuslessArc :
    let sheet : Sheet := ⟨⟨1.0, 2.0⟩, [.clear], .empty⟩
    let r : Registry := ⟨[.horizontalLine, .reference, radiuslessArc]⟩
    let run := fun script => runPass r .initial script .empty 1
    (∃ after, (radiuslessArc.work ["3", "4"] .initial).run sheet
      = .error "argument missing: radius" after ∧ after = sheet) ∧
    (∃ after, (r.work .initial (.call "bogus" [])).run sheet
      = .error "unknown command 'bogus'" after ∧ after = sheet) ∧
    (run "h 1\nref a.png\narc 3 4\nh 2").report.verdict = .halted 3 ∧ 1 < 3 ∧
    Text.firstLines 2 "h 1\nref a.png\narc 3 4\nh 2" = "h 1\nref a.png" ∧
    (run "h 1\nref a.png").report.verdict = .completed ∧
    (run "h 1\nref a.png").report.cursor = (run "h 1\nref a.png\narc 3 4\nh 2").report.cursor ∧
    (run "h 1\nref a.png").cache = (run "h 1\nref a.png\narc 3 4\nh 2").cache := by
  intro sheet r run
  have lacking : (radiuslessArc.deed ["3", "4"]).fails = true := by decide +kernel
  have reason : (radiuslessArc.deed ["3", "4"]).hint sheet.cursor sheet.cache.get?
      = "argument missing: radius" := by decide +kernel
  have broken : (radiuslessArc.work ["3", "4"] .initial).run sheet
      = .error "argument missing: radius" sheet := by
    rw [Command.run_work, Deed.enact, if_pos lacking, reason]
    rfl
  have unknown : (r.work .initial (.call "bogus" [])).run sheet
      = .error "unknown command 'bogus'" sheet := rfl
  have halted : (run "h 1\nref a.png\narc 3 4\nh 2").report.verdict = .halted 3 := by decide +kernel
  have first : Text.firstLines 2 "h 1\nref a.png\narc 3 4\nh 2" = "h 1\nref a.png" := by
    decide +kernel
  have same := ((failure_leaves_no_trace.2 r .initial).2 _ .empty 1 3 halted (by decide))
  rw [show 3 - 1 = 2 from rfl, first] at same
  exact ⟨⟨sheet, broken, failure_leaves_no_trace.1 _ _ _ _ _ _ broken⟩,
    ⟨sheet, unknown, (failure_leaves_no_trace.2 r .initial).1 _ _ _ _ unknown⟩,
    halted, by decide, first, same.1, same.2.2.1, same.2.2.2.2.1⟩

end Linework
