import Linework.Proofs.Pass.Pictures

/-!
# `Linework.Proofs.Pass.Alignment`: one hint for each line

A pass goes through the lines from the top and leaves a hint at each line it comes to. It
comes to all of them, or it halts at one, and then the hint of that line is the last. So a
hint's place in the list is the place of its line (`Registry.verdict_traceLines`,
`Registry.hint_traceLines`).

An empty hint says that nothing was said. A command that is called never leaves one,
whatever comes of it: the hint of a path line has a multiplication sign in it, and the others
have at least one word (`Deed.hint_ne_empty`). This is a fact about the wording, so it rests on
every message that a check, an action or a picture can bring. With it, the empty hints stand
just at the lines that are blank or a comment (`hints_aligned`).

No condition on the registry is needed for any of this.
-/

set_option autoImplicit false

namespace Linework

/-! ## Lines that say nothing -/

/-- A text has at least one word, if only the empty one. -/
theorem Line.words_ne_nil (text : String) : Line.words text ≠ [] := by
  simp [Line.words, Text.pieces_ne_nil]

/-- A line says nothing if it is blank or a comment, and in no other case. -/
theorem Line.read_eq_silent_iff (source : String) :
    Line.read source = .silent ↔
      Text.trim source = "" ∨ Text.hasHead commentMark (Text.trim source) = true := by
  have nothing : Line.saysNothing (Text.trim source) = true ↔
      Text.trim source = "" ∨ Text.hasHead commentMark (Text.trim source) = true := by
    simp [Line.saysNothing]
  rw [← nothing]
  by_cases h : Line.saysNothing (Text.trim source) = true
  · simp [Line.read, h]
  · -- A text has at least one word, so the line calls something.
    obtain ⟨name, tokens, split⟩ := List.exists_cons_of_ne_nil (Line.words_ne_nil (Text.trim source))
    simp [Line.read, h, split]

/-! ## Deeds that say something -/

/-- An action does something or fails. -/
theorem Action.deed_ne_silent (a : Action) (args : Arguments) : a.deed args ≠ .silent := by
  refine deed_of (P := fun d => d ≠ .silent) ?_ ?_ ?_ ?_ ?_ ?_ a args
  all_goals simp

/-- A line that calls something does something or fails, whatever it calls. -/
theorem Registry.deed_call_ne_silent (r : Registry) (name : String) (tokens : List String) :
    r.deed (.call name tokens) ≠ .silent := by
  simp only [Registry.deed]
  cases r.lookup? name with
  | none => simp
  | some command =>
    show command.deed tokens ≠ .silent
    rw [Command.deed]
    split
    · exact command.action.deed_ne_silent _
    · simp

/-- A text with a character in it is not empty. -/
theorem ne_empty_of_mem {text : String} {mark : Char} (present : mark ∈ text.toList) : text ≠ "" := by
  rintro rfl
  exact List.not_mem_nil present

/-- Whoever does anything leaves a hint that is not empty. -/
theorem Deed.hint_ne_empty {d : Deed} (acts : d ≠ .silent) (words : d.FailsInWords) (cursor : Cursor)
    (look : String → Option EntryState) : d.hint cursor look ≠ "" := by
  have path (target : Cursor) : target.hint ≠ "" := ne_empty_of_mem target.times_mem_hint
  cases d with
  | silent => exact absurd rfl acts
  | horizontal x => exact path _
  | vertical y => exact path _
  | straight x y => exact path _
  | curve x y radius flip => exact path _
  | failure reason => exact ne_empty_of_mem (words reason rfl)
  | picture url x y =>
    rw [Deed.hint]
    split
    · exact ne_empty_of_mem (EntryState.blank_mem_status _)
    · decide

/-- A hint is empty exactly where the line says nothing. -/
theorem Registry.hint_eq_empty_iff (r : Registry) (line : Line) (cursor : Cursor)
    (look : String → Option EntryState) : (r.deed line).hint cursor look = "" ↔ line = .silent := by
  cases line with
  | silent => simp [Registry.deed, Deed.hint]
  | call name tokens =>
    have filled : (r.deed (.call name tokens)).hint cursor look ≠ "" :=
      Deed.hint_ne_empty (r.deed_call_ne_silent name tokens) (r.failsInWords_deed _) cursor look
    simp [filled]

/-! ## Hints and lines -/

namespace Registry

/-- Going through lines, of which the first has the number after `before`, leaves a hint for
each, or halts at the line whose hint is the last. -/
theorem verdict_traceLines (r : Registry) (view : Viewport) (before : Nat) (lines : List Line)
    (cursor : Cursor) (cache : Cache) :
    let trace := r.traceLines view (before + 1) lines cursor cache
    (trace.verdict = .completed ∧ trace.hints.length = lines.length) ∨
      (trace.verdict = .halted (before + trace.hints.length) ∧
        1 ≤ trace.hints.length ∧ trace.hints.length ≤ lines.length) := by
  -- The induction is on the lines, with the number of lines before them growing by one at each.
  induction lines generalizing before cursor cache with
  | nil => exact .inl ⟨rfl, rfl⟩
  | cons line rest ih =>
    rw [traceLines_cons]
    by_cases hf : (r.deed line).fails = true
    · rw [if_pos hf]
      exact .inr ⟨rfl, Nat.le_refl 1, by simp [Trace.failed]⟩
    · rw [if_neg hf]
      -- The lines after this one have their numbers after `before + 1`.
      rcases ih (before + 1) ((r.deed line).target cursor)
          (cache.requestAll (r.deed line).url?.toList) with ⟨completed, count⟩ | ⟨halted, some, count⟩
      · exact .inl ⟨completed, by simp [Trace.hints_after, count]⟩
      · refine .inr ⟨halted.trans (congrArg Verdict.halted ?_), ?_, ?_⟩ <;>
          simp only [Trace.hints_after, List.length_cons] <;> omega

/-- A hint is that of the line in its place, with what is known about pictures when the pass
begins: what earlier lines ask for does not come in between. -/
theorem hint_traceLines (r : Registry) (view : Viewport) (number : Nat) (lines : List Line)
    (cursor : Cursor) (cache : Cache) {i : Nat} {hint : String}
    (found : (r.traceLines view number lines cursor cache).hints[i]? = some hint) :
    ∃ line, lines[i]? = some line ∧ ∃ reached, hint = (r.deed line).hint reached cache.get? := by
  induction lines generalizing number cursor cache i with
  | nil => cases found
  | cons line rest ih =>
    rw [traceLines_cons] at found
    by_cases hf : (r.deed line).fails = true
    · rw [if_pos hf, Trace.hints_failed] at found
      cases i with
      | zero => exact ⟨line, rfl, cursor, (Option.some.inj found).symm⟩
      | succ i => cases found
    · rw [if_neg hf, Trace.hints_after] at found
      cases i with
      | zero => exact ⟨line, rfl, cursor, (Option.some.inj found).symm⟩
      -- The hint is one of a later line, which found the cache asked for more, but with the same
      -- entries.
      | succ i =>
        obtain ⟨other, there, reached, same⟩ := ih _ _ _ found
        have looks : (cache.requestAll (r.deed line).url?.toList).get? = cache.get? :=
          funext fun key => Cache.get?_requestAll _ _ key
        rw [looks] at same
        exact ⟨other, there, reached, same⟩

end Registry

/-- A pass completes with a hint for every line of the script, or it halts at a line of the
script with a hint for that line and each line before it. A hint is empty exactly where the
line, without the blanks around it, is empty or begins with the comment mark. -/
theorem hints_aligned (r : Registry) (view : Viewport) (script : String) (cache : Cache)
    (generation : Nat) :
    let report := (runPass r view script cache generation).report
    let lines := Text.lines script
    report.lines = lines.length ∧
    ((report.verdict = .completed ∧ report.hints.length = lines.length) ∨
      ∃ n, report.verdict = .halted n ∧ report.hints.length = n ∧ 1 ≤ n ∧ n ≤ lines.length) ∧
    ∀ (i : Nat) (hint : String), report.hints[i]? = some hint → ∃ line, lines[i]? = some line ∧
      (hint = "" ↔ Text.trim line = "" ∨ Text.hasHead commentMark (Text.trim line) = true) := by
  intro report lines
  have count : (readScript script).length = lines.length := List.length_map _
  refine ⟨count, ?_, fun i hint found => ?_⟩
  · rw [← count]
    rcases r.verdict_traceLines view 0 (readScript script) .origin cache with whole | ⟨halted, some, enough⟩
    · exact .inl whole
    · exact .inr ⟨_, halted, (Nat.zero_add _).symm, by omega, by omega⟩
  · obtain ⟨line, there, reached, same⟩ := r.hint_traceLines view 1 _ .origin cache found
    rw [readScript, List.getElem?_map, Option.map_eq_some_iff] at there
    obtain ⟨source, at_i, read⟩ := there
    refine ⟨source, at_i, ?_⟩
    rw [same, r.hint_eq_empty_iff, ← read, Line.read_eq_silent_iff]

/-- Blank lines and comments keep their places, and a line that halts the pass has its hint. -/
example :
    (runPass ⟨[]⟩ .initial "// start\n\n  // end\nbogus 1\nmore" .empty 1).report.hints
      = ["", "", "", "unknown command 'bogus'"] := by
  decide +kernel

end Linework
