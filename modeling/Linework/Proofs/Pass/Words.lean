import Linework.Proofs.Command.Calling
import Linework.Proofs.Pass.Composition

/-!
# `Linework.Proofs.Pass.Words`: calls that are read as they were written

A call is written as the command's name and its tokens with one space between any two. A line is
trimmed, cut at its spaces, and the words are trimmed once more. Nothing of this loses a word or
adds one, as long as no word has a blank in it (`Line.read_call`):

* Blanks around the call are trimmed off. The call itself begins with the name, which is not
  empty, and it must not end with an empty token, for then it would end with the space before it.
* A space inside the call is one that was put there, and an empty token is an empty word between
  two of them.
* The words have no blanks that could be trimmed.

The name must not begin with the comment mark. What comes after it cannot make a comment of it,
since a space comes first.

Scripts are lines with line breaks between them, so a call stands in its place among the lines
(`readScript_intercalate`), and a pass that gets there invokes the command with these tokens on
the sheet as the lines before have left it (`written_call_is_invoked`).
-/

set_option autoImplicit false

namespace Linework

/-- A call as it is written. -/
def writtenCall (name : String) (tokens : List String) : String :=
  " ".intercalate (name :: tokens)

/-- A call with a token is its name, a space, and the call of the rest. -/
theorem writtenCall_cons (name token : String) (tokens : List String) :
    writtenCall name (token :: tokens) = name ++ " " ++ writtenCall token tokens :=
  String.intercalate_cons_cons

/-! ## Both ends of a call -/

/-- A call begins with its name, and if there is more to it, a space comes next. -/
theorem toList_writtenCall (name : String) (tokens : List String) :
    (writtenCall name tokens).toList = name.toList ∨
      ∃ more, (writtenCall name tokens).toList = name.toList ++ ' ' :: more := by
  cases tokens with
  | nil => exact .inl (by simp [writtenCall])
  | cons token tokens =>
    refine .inr ⟨(writtenCall token tokens).toList, ?_⟩
    simp [writtenCall_cons]

/-- A call begins as its name does, since the name is not empty. -/
theorem head?_writtenCall {name : String} (filled : name ≠ "") (tokens : List String) :
    (writtenCall name tokens).toList.head? = name.toList.head? := by
  obtain ⟨c, cs, split⟩ := List.exists_cons_of_ne_nil (String.toList_eq_nil_iff.not.mpr filled)
  rcases toList_writtenCall name tokens with alone | ⟨more, followed⟩
  · rw [alone]
  · rw [followed, split]
    rfl

/-- A call whose last word is not empty ends with a character of that word. -/
theorem exists_getLast?_writtenCall {name : String} {tokens : List String}
    (filled : ∀ word ∈ (name :: tokens).getLast?, word ≠ "") :
    ∃ word ∈ name :: tokens, ∃ c ∈ word.toList,
      (writtenCall name tokens).toList.getLast? = some c := by
  -- The induction is on the tokens, each of which takes its turn at the head of the call.
  induction tokens generalizing name with
  | nil =>
    have some : name.toList ≠ [] := String.toList_eq_nil_iff.not.mpr (filled name rfl)
    refine ⟨name, List.mem_cons_self, _, List.getLast_mem some, ?_⟩
    simp [writtenCall, List.getLast?_eq_some_getLast some]
  | cons token tokens ih =>
    rw [List.getLast?_cons_cons] at filled
    obtain ⟨word, among, c, within, last⟩ := ih filled
    refine ⟨word, List.mem_cons_of_mem _ among, c, within, ?_⟩
    rw [writtenCall_cons, String.toList_append, List.getLast?_append, last]
    rfl

/-- A call is made of the characters of its words, and of spaces. -/
theorem eq_or_exists_of_mem_writtenCall {name : String} {tokens : List String} {c : Char}
    (among : c ∈ (writtenCall name tokens).toList) :
    c = ' ' ∨ ∃ word ∈ name :: tokens, c ∈ word.toList := by
  induction tokens generalizing name with
  | nil => exact .inr ⟨name, List.mem_cons_self, by simpa [writtenCall] using among⟩
  | cons token tokens ih =>
    rw [writtenCall_cons, String.toList_append, String.toList_append, List.mem_append,
      List.mem_append] at among
    rcases among with (first | space) | others
    · exact .inr ⟨name, List.mem_cons_self, first⟩
    · exact .inl (List.mem_singleton.mp space)
    · refine (ih others).imp_right ?_
      rintro ⟨word, later, within⟩
      exact ⟨word, List.mem_cons_of_mem _ later, within⟩

/-- A call begins with the comment mark just if its name does. -/
theorem hasHead_writtenCall (name : String) (tokens : List String) :
    Text.hasHead commentMark (writtenCall name tokens) = Text.hasHead commentMark name := by
  have slashes : commentMark.toList = ['/', '/'] := rfl
  rw [Text.hasHead, Text.hasHead, slashes]
  rcases toList_writtenCall name tokens with alone | ⟨more, followed⟩
  · rw [alone]
  · -- The name may be a single slash, and then a space comes after it.
    rw [followed]
    cases name.toList with
    | nil => rfl
    | cons c cs =>
      cases cs with
      | nil => simp [List.isPrefixOf]
      | cons d cs => rfl

/-! ## A call as a line -/

section Call

variable {name : String} {tokens : List String} {front back : String}

/-- The text has no blank in it. -/
def Text.IsSolid (s : String) : Prop := ∀ c ∈ s.toList, isBlank c = false

/-- The text is made of blanks that do not break the line. -/
def Text.IsGap (s : String) : Prop := ∀ c ∈ s.toList, isBlank c = true ∧ c ≠ '\n'

-- The list is gone through, and not all characters there are.
instance (s : String) : Decidable (Text.IsSolid s) := List.decidableBAll _ s.toList

instance (s : String) : Decidable (Text.IsGap s) := List.decidableBAll _ s.toList

/-- Blanks around a call are all that is trimmed from it. It begins with the name and ends with a
word that is not empty, and neither has a blank at its end. -/
theorem trim_call (solid : ∀ word ∈ name :: tokens, Text.IsSolid word) (filled : name ≠ "")
    (ends : ∀ token ∈ tokens.getLast?, token ≠ "") (before : Text.IsGap front)
    (after : Text.IsGap back) :
    Text.trim (front ++ writtenCall name tokens ++ back) = writtenCall name tokens := by
  have last : ∀ word ∈ (name :: tokens).getLast?, word ≠ "" := by
    cases tokens with
    | nil => simpa using filled
    | cons token tokens => simpa using ends
  obtain ⟨word, among, c, within, final⟩ := exists_getLast?_writtenCall last
  have head : ∀ c ∈ (writtenCall name tokens).toList.head?, Text.isBlank c = false := by
    intro c first
    rw [head?_writtenCall filled] at first
    exact solid name List.mem_cons_self c (List.mem_of_head? first)
  have tail : ∀ d ∈ (writtenCall name tokens).toList.getLast?, Text.isBlank d = false := by
    intro d same
    obtain rfl : c = d := Option.some.inj (final.symm.trans same)
    exact solid word among c within
  have stripped := Text.strip_between (fun c among => (before c among).1)
    (fun c among => (after c among).1) head tail
  rw [Text.trim, String.toList_append, String.toList_append, List.append_assoc, stripped,
    String.ofList_toList]

/-- The words of a call are those it was written with. No word has a space in it, so the cuts fall
between the words. -/
theorem words_writtenCall (solid : ∀ word ∈ name :: tokens, Text.IsSolid word) :
    Line.words (writtenCall name tokens) = name :: tokens := by
  have unspaced : ∀ word ∈ name :: tokens, ' ' ∉ word.toList :=
    fun word among space => absurd (solid word among ' ' space) (by decide)
  have pieces : Text.pieces ' ' (writtenCall name tokens) = name :: tokens :=
    Text.pieces_intercalate (by simp) unspaced
  -- The words are as they were cut, for there is nothing to trim.
  rw [Line.words, pieces]
  refine (List.map_congr_left fun word among => ?_).trans (List.map_id _)
  exact Text.trim_of_no_blank (solid word among)

/-- A call with blanks around it is read as it was written. -/
theorem Line.read_call (solid : ∀ word ∈ name :: tokens, Text.IsSolid word) (filled : name ≠ "")
    (ends : ∀ token ∈ tokens.getLast?, token ≠ "") (before : Text.IsGap front)
    (after : Text.IsGap back) (plain : Text.hasHead commentMark name = false) :
    Line.read (front ++ writtenCall name tokens ++ back) = .call name tokens := by
  -- An empty call would begin with nothing, and the name is not empty.
  have some : writtenCall name tokens ≠ "" := by
    intro empty
    have first := head?_writtenCall filled tokens
    rw [empty] at first
    exact filled (String.toList_eq_nil_iff.mp (List.head?_eq_none_iff.mp first.symm))
  have spoken : Line.saysNothing (writtenCall name tokens) = false := by
    simp [Line.saysNothing, some, hasHead_writtenCall, plain]
  rw [Line.read, trim_call solid filled ends before after]
  simp only [spoken, words_writtenCall solid]
  rfl

/-- A call with blanks around it is one line. -/
theorem readScript_call (solid : ∀ word ∈ name :: tokens, Text.IsSolid word)
    (before : Text.IsGap front) (after : Text.IsGap back) :
    readScript (front ++ writtenCall name tokens ++ back)
      = [Line.read (front ++ writtenCall name tokens ++ back)] := by
  -- A line break is a blank, but neither a space between words nor in any of them.
  have call : '\n' ∉ (writtenCall name tokens).toList := by
    intro among
    rcases eq_or_exists_of_mem_writtenCall among with space | ⟨word, among, within⟩
    · cases space
    · exact absurd (solid word among '\n' within) (by decide)
  have unbroken : '\n' ∉ (front ++ writtenCall name tokens ++ back).toList := by
    rw [String.toList_append, String.toList_append, List.mem_append, List.mem_append, not_or,
      not_or]
    exact ⟨⟨fun among => (before _ among).2 rfl, call⟩, fun among => (after _ among).2 rfl⟩
  rw [readScript, Text.lines, Text.pieces_of_not_mem unbroken, List.map_singleton]

end Call

/-! ## A call among other lines -/

/-- Texts with line breaks between them have the lines of all. -/
theorem readScript_intercalate {texts : List String} (some : texts ≠ []) :
    readScript ("\n".intercalate texts) = texts.flatMap readScript := by
  induction texts with
  | nil => exact absurd rfl some
  | cons text rest ih =>
    cases rest with
    | nil => simp
    | cons next rest =>
      rw [String.intercalate_cons_cons, readScript_append, ih (by simp)]
      rfl

/-- What going through lines comes to when the lines before line `number` are told, its work has
come to a result, and there are lines left. -/
def Registry.goOn (r : Registry) (view : Viewport) (number : Nat) (told : List String)
    (left : List Line) : EStateM.Result String Sheet String → Trace
  | .ok hint sheet =>
    let rest := r.traceLines view (number + 1) left sheet.cursor sheet.cache
    { rest with hints := told ++ hint :: rest.hints, ops := sheet.ops ++ rest.ops }
  | .error hint sheet =>
    ⟨told ++ [hint], .halted number, sheet.cursor, sheet.ops, sheet.cache⟩

/-- A line that is come to works on the sheet as the lines before have left it. -/
theorem Registry.traceLines_eq_goOn {r : Registry} {view : Viewport} {above : List Line}
    {cache : Cache} (completed : (r.traceLines view 1 above .origin cache).verdict = .completed)
    (line : Line) (below : List Line) :
    let start := r.traceLines view 1 above .origin cache
    r.traceLines view 1 (above ++ line :: below) .origin cache
      = r.goOn view (above.length + 1) start.hints below
          ((r.work view line).run ⟨start.cursor, start.ops, start.cache⟩) := by
  intro start
  rw [r.traceLines_append, Trace.andThen_of_completed completed, r.traceLines_cons, r.run_work,
    Deed.enact, Nat.add_comm 1]
  -- Whether the line fails or not, the sheet that it leaves is told by its deed.
  by_cases hf : (r.deed line).fails = true
  · rw [if_pos hf, if_pos hf]
    simp [goOn, Sheet.after, Trace.failed, start]
  · rw [if_neg hf, if_neg hf]
    simp [goOn, Sheet.after, Trace.after, start]

/-- Take a command of a registry and one of its names, unless the name begins with the comment mark.
Take tokens without blanks, of which the last is not empty, and blanks before and after the call
that do not break the line. Then the line is read as a call of the name with these tokens, and a
pass over a script with the line in it, if it completes the lines before, invokes the command with
these tokens on the sheet as these lines have left it, and goes on from there. -/
theorem written_call_is_invoked {commands : List Command} {r : Registry}
    (built : Registry.build commands = .ok r) {c : Command} (among : c ∈ commands) {name : String}
    (named : name ∈ c.names) (plain : Text.hasHead commentMark name = false) {tokens : List String}
    (solid : ∀ token ∈ tokens, Text.IsSolid token) (ends : ∀ token ∈ tokens.getLast?, token ≠ "")
    {front back : String} (before : Text.IsGap front) (after : Text.IsGap back)
    (above below : List String) (view : Viewport) (cache : Cache) (generation : Nat) :
    let line := front ++ writtenCall name tokens ++ back
    let start := r.traceLines view 1 (above.flatMap readScript) .origin cache
    let number := (above.flatMap readScript).length + 1
    let whole := r.goOn view number start.hints (below.flatMap readScript)
      ((c.work tokens view).run ⟨start.cursor, start.ops, start.cache⟩)
    let pass := runPass r view ("\n".intercalate (above ++ line :: below)) cache generation
    Line.read line = .call name tokens ∧
    (start.verdict = .completed →
      pass.report = ⟨whole.hints, whole.verdict, whole.cursor,
        number + (below.flatMap readScript).length, generation⟩ ∧
      pass.ops = .clear :: .moveTo view.panX view.panY :: (whole.ops ++ [.stroke]) ∧
      pass.cache = whole.cache) := by
  intro line start number whole pass
  have found : r.lookup? name = some c := Registry.lookup?_of_build built among named
  have valid := (Registry.build_eq_ok_iff.mp built).1 c among
  obtain ⟨filled, spelled⟩ :=
    Command.isUsableName_iff.mp (Command.isUsableName_of_validate valid named)
  have words : ∀ word ∈ name :: tokens, Text.IsSolid word :=
    List.forall_mem_cons.mpr ⟨spelled, solid⟩
  have read : Line.read line = .call name tokens :=
    Line.read_call words filled ends before after plain
  have script : readScript ("\n".intercalate (above ++ line :: below))
      = above.flatMap readScript ++ .call name tokens :: below.flatMap readScript := by
    rw [readScript_intercalate (by simp), List.flatMap_append, List.flatMap_cons,
      readScript_call words before after, read, List.singleton_append]
  have work : r.work view (.call name tokens) = c.work tokens view := by
    simp only [Registry.work, found]
  refine ⟨read, fun completed => ?_⟩
  -- The lines before have been completed, so the call is come to with the sheet as they left it.
  have trace := Registry.traceLines_eq_goOn completed (.call name tokens) (below.flatMap readScript)
  rw [work] at trace
  have count : (above.flatMap readScript ++ Line.call name tokens :: below.flatMap readScript).length
      = number + (below.flatMap readScript).length := by
    rw [List.length_append, List.length_cons]
    show _ = _ + 1 + _
    omega
  simp only [pass, runPass, script, trace, count]
  exact ⟨rfl, rfl, rfl⟩

/-- Blanks of several kinds stand around the call, and its first token is empty, which is read as
zero. In the middle of a script and alone, the command is invoked with the two tokens. -/
theorem written_call_is_invoked_with_empty_token :
    let line := "\t\u00a0" ++ writtenCall "l" ["", "20"] ++ "\r\u3000"
    let run := fun script => runPass builtinRegistry .initial script .empty 1
    let start :=
      builtinRegistry.traceLines .initial 1 (["h 1", "// up"].flatMap readScript) .origin .empty
    line = "\t\u00a0l  20\r\u3000" ∧ Line.read line = .call "l" ["", "20"] ∧
    start.verdict = .completed ∧
    (run ("\n".intercalate ["h 1", "// up", line, "v 2"])).cache
      = (builtinRegistry.goOn .initial 3 start.hints (["v 2"].flatMap readScript)
          ((Command.line.work ["", "20"] .initial).run ⟨start.cursor, start.ops, start.cache⟩)).cache ∧
    (run ("\n".intercalate ["h 1", "// up", line, "v 2"])).report.hints
      = ["1×0", "", "1×20", "1×22"] ∧
    (run line).report.hints = (builtinRegistry.goOn .initial 1 [] []
      ((Command.line.work ["", "20"] .initial).run ⟨.origin, [], .empty⟩)).hints := by
  intro line run start
  have built : Registry.build builtinRegistry.commands = .ok builtinRegistry := by rfl
  have among : Command.line ∈ builtinRegistry.commands := by simp [builtinRegistry]
  have named : "l" ∈ Command.line.names := by decide
  have solid : ∀ token ∈ ["", "20"], Text.IsSolid token := by decide
  have before : Text.IsGap "\t\u00a0" := by decide
  have after : Text.IsGap "\r\u3000" := by decide
  have completed : start.verdict = .completed := by decide +kernel
  have invoked := written_call_is_invoked built among named (by decide) solid (by simp) before after
  have within := (invoked ["h 1", "// up"] ["v 2"] .initial .empty 1).2 completed
  have alone := (invoked [] [] .initial .empty 1).2 rfl
  exact ⟨by decide +kernel, (invoked [] [] .initial .empty 1).1, completed, within.2.2,
    by decide +kernel, congrArg Report.hints alone.1⟩

end Linework
