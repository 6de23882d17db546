import Linework.Command.Builtin
import Linework.Proofs.Argument.Problems
import Linework.Proofs.Number.ReadingBack
import Linework.Proofs.Pass.Alignment
import Linework.Proofs.Text.Cutting

/-!
# `Linework.Proofs.Pass.OneLine`: hints of one line

A hint is shown between the lines of a script, so it must not break its own line. What it quotes
is the danger: words of the script, names of parameters, lists of words to choose from. The words
of a script come from its lines, and there is no line break in a line (`Line.oneLine_words`). The
rest is up to the commands (`Registry.IsPlain`); those of the built-in registry are in order
(`builtinRegistry_isPlain`).

With both, no message of a check, no reason that an action fails for and no status of a picture
has a line break in it (`Command.oneLine_hint`, `Action.failsInOneLine_deed`,
`EntryState.oneLine_status`), and so no hint of a pass has (`Registry.oneLine_hints`).
-/

set_option autoImplicit false

namespace Linework

/-- A text without line breaks. -/
def OneLine (s : String) : Prop := '\n' ∉ s.toList

instance (s : String) : Decidable (OneLine s) := inferInstanceAs (Decidable ('\n' ∉ s.toList))

/-- Two texts of one line make one line. -/
theorem OneLine.append {a b : String} (ha : OneLine a) (hb : OneLine b) : OneLine (a ++ b) := by
  rw [OneLine, String.toList_append, List.mem_append, not_or]
  exact ⟨ha, hb⟩

/-- Texts of one line with a separator of one line between them make one line. -/
theorem oneLine_intercalate {sep : String} (hsep : OneLine sep) {ps : List String}
    (hps : ∀ p ∈ ps, OneLine p) : OneLine (sep.intercalate ps) := by
  induction ps with
  | nil => simp [OneLine]
  | cons p ps ih =>
    obtain ⟨first, rest⟩ := List.forall_mem_cons.mp hps
    cases ps with
    | nil => simpa using first
    | cons q ps =>
      rw [String.intercalate_cons_cons]
      exact (first.append hsep).append (ih rest)

/-- A number is printed in digits. -/
theorem oneLine_numeral (n : Nat) : OneLine (numeral n) := by
  intro among
  rw [numeral, String.toList_ofList] at among
  have digit := Nat.isDigit_of_mem_toDigits (by decide) (by decide) among
  exact absurd digit (by decide)

/-- A number of a hint is printed in digits and a few signs, none of which breaks a line. -/
theorem oneLine_formatNumber (x : Float) : OneLine (formatNumber x) :=
  fun among => absurd (formatNumber_ascii x '\n' among).1 (by decide)

/-! ## Words of a line -/

namespace Text

/-- A piece is part of what it was glued into. -/
theorem subset_intercalate {ps : List (List Char)} {piece : List Char} (h : piece ∈ ps)
    (sep : List Char) : piece ⊆ sep.intercalate ps := by
  induction ps with
  | nil => cases h
  | cons p ps ih =>
    cases ps with
    | nil =>
      obtain rfl := List.mem_singleton.mp h
      rw [List.intercalate_singleton]
      exact List.Subset.refl _
    | cons q ps =>
      rw [List.intercalate_cons_cons]
      -- The piece is the first one, or it is within the others, which stand behind the separator.
      rcases List.mem_cons.mp h with rfl | later
      · exact List.subset_append_of_subset_left _ (List.subset_append_left _ _)
      · exact List.subset_append_of_subset_right _ (ih later)

/-- There is nothing in a piece that is not in the text. -/
theorem subset_of_mem_splitOn {sep : Char} {cs piece : List Char} (h : piece ∈ cs.splitOn sep) :
    piece ⊆ cs := by
  have glued := subset_intercalate h [sep]
  rwa [List.intercalate_splitOn] at glued

/-- A piece of a text of one line is one line. -/
theorem oneLine_of_mem_pieces {sep : Char} {s piece : String} (h : piece ∈ pieces sep s)
    (single : OneLine s) : OneLine piece := by
  obtain ⟨cs, cut, rfl⟩ := List.mem_map.mp h
  intro among
  rw [String.toList_ofList] at among
  exact single (subset_of_mem_splitOn cut among)

/-- A text of one line that is trimmed is one line. -/
theorem oneLine_trim {s : String} (single : OneLine s) : OneLine (trim s) := by
  obtain ⟨front, back, split, -, -⟩ := exists_eq_strip s.toList
  intro among
  rw [toList_trim] at among
  refine single ?_
  rw [split]
  exact List.mem_append_right _ (List.mem_append_left _ among)

/-- And so is one that is trimmed at the end. -/
theorem oneLine_trimEnd {s : String} (single : OneLine s) : OneLine (trimEnd s) := by
  intro among
  rw [toList_trimEnd, dropTrailingBlanks, List.mem_reverse] at among
  exact single (List.mem_reverse.mp ((List.dropWhile_sublist _).subset among))

end Text

/-- A line that calls something has its name and its words from its own text. -/
theorem Line.oneLine_words {source name : String} {tokens : List String} (single : OneLine source)
    (call : Line.read source = .call name tokens) :
    OneLine name ∧ ∀ token ∈ tokens, OneLine token := by
  have words : ∀ word ∈ Line.words (Text.trim source), OneLine word := by
    intro word among
    obtain ⟨piece, cut, rfl⟩ := List.mem_map.mp among
    exact Text.oneLine_trim (Text.oneLine_of_mem_pieces cut (Text.oneLine_trim single))
  -- The line is a call, so its words are the name and the tokens.
  simp only [Line.read] at call
  split at call
  · cases call
  · split at call
    · cases call
    · rename_i first rest split
      cases call
      rw [split] at words
      exact List.forall_mem_cons.mp words

/-! ## Messages of a check -/

namespace Diagnostic

/-- The texts that a diagnostic quotes. -/
def quoted : Diagnostic → List String
  | missingArgument name => [name]
  | notANumber name token => [name, token]
  | notInOptions name token options => name :: token :: options
  | notABoolean name token => [name, token]
  | surplusArguments _ => []
  | unknownCommand name => [name]

/-- The wording of a diagnostic does not break a line that what it quotes does not break. -/
theorem oneLine_message {d : Diagnostic} (h : ∀ text ∈ d.quoted, OneLine text) :
    OneLine d.message := by
  cases d with
  | missingArgument name =>
    have name : OneLine name := h name (by simp [quoted])
    exact OneLine.append (by decide) name
  | notANumber name token =>
    have name : OneLine name := h name (by simp [quoted])
    have token : OneLine token := h token (by simp [quoted])
    exact ((name.append (by decide)).append token).append (by decide)
  | notInOptions name token options =>
    have name : OneLine name := h name (by simp [quoted])
    have token : OneLine token := h token (by simp [quoted])
    have options : OneLine (",".intercalate options) :=
      oneLine_intercalate (by decide) fun option among => h option (by simp [quoted, among])
    exact (((name.append (by decide)).append token).append (by decide)).append options
  | notABoolean name token =>
    have name : OneLine name := h name (by simp [quoted])
    have token : OneLine token := h token (by simp [quoted])
    exact ((name.append (by decide)).append token).append (by decide)
  | surplusArguments count => exact (oneLine_numeral count).append (by decide)
  | unknownCommand name =>
    have name : OneLine name := h name (by simp [quoted])
    exact (OneLine.append (by decide) name).append (by decide)

end Diagnostic

/-- The texts of a parameter that a message about it quotes: its name and the words it takes. -/
def Param.quoted (p : Param) : List String :=
  p.name :: match p.kind with
    | .choice options => options
    | _ => []

/-- A parameter that is spelled in texts of one line. -/
def Param.IsPlain (p : Param) : Prop := ∀ text ∈ p.quoted, OneLine text

instance (p : Param) : Decidable p.IsPlain :=
  inferInstanceAs (Decidable (∀ text ∈ p.quoted, OneLine text))

/-- The problem that a parameter has with a token is told in one line. Each kind of parameter
quotes what it takes, its name and the token, and nothing else. -/
theorem Param.oneLine_problem? {p : Param} (plain : p.IsPlain) {token : String}
    (single : OneLine token) {problem : Diagnostic} (found : p.problem? token = some problem) :
    OneLine problem.message := by
  apply Diagnostic.oneLine_message
  obtain ⟨named, words⟩ := List.forall_mem_cons.mp plain
  obtain ⟨name, kind, fallback⟩ := p
  cases kind with
  | text => cases found
  | number =>
    simp only [problem?, Option.ite_none_left_eq_some] at found
    obtain ⟨-, ⟨⟩⟩ := found
    simpa [Diagnostic.quoted] using ⟨named, single⟩
  | choice options =>
    simp only [problem?, Option.ite_none_left_eq_some] at found
    obtain ⟨-, ⟨⟩⟩ := found
    simpa [Diagnostic.quoted] using ⟨named, single, words⟩
  | truth =>
    simp only [problem?, Option.ite_none_left_eq_some] at found
    obtain ⟨-, ⟨⟩⟩ := found
    simpa [Diagnostic.quoted] using ⟨named, single⟩

/-- The problem with the number of tokens is told in one line. It quotes the name of a parameter
at most. -/
theorem oneLine_countProblem? {count : Nat} {required optional : List Param}
    (plain : ∀ p ∈ required, p.IsPlain) {problem : Diagnostic}
    (found : countProblem? count required optional = some problem) : OneLine problem.message := by
  apply Diagnostic.oneLine_message
  unfold countProblem? at found
  split_ifs at found with short long
  · cases found
    have named := List.forall_mem_cons.mp (plain _ (List.getElem_mem short))
    simpa [Diagnostic.quoted] using named.1
  · cases found
    simp [Diagnostic.quoted]

/-- The problems of a check are told in one line. -/
theorem Command.oneLine_hint {c : Command} (plain : ∀ p ∈ c.params, p.IsPlain)
    {tokens : List String} (single : ∀ token ∈ tokens, OneLine token) :
    OneLine (c.check tokens).hint := by
  refine oneLine_intercalate (by decide) fun message among => ?_
  obtain ⟨problem, found, rfl⟩ := List.mem_map.mp among
  rw [check, checkArguments, ArgCheck.diagnostics_scan] at found
  have none : ArgCheck.start.diagnostics = [] := rfl
  rw [none, List.nil_append, List.mem_append, tokenProblems, List.mem_filterMap,
    Option.mem_toList] at found
  -- It is about a token and its parameter, or about how many tokens there are.
  rcases found with ⟨pair, paired, found⟩ | found
  · exact Param.oneLine_problem? (plain _ (List.of_mem_zip paired).2)
      (single _ (List.of_mem_zip paired).1) found
  · exact oneLine_countProblem? (fun p among => plain p (List.mem_append_left _ among)) found

/-! ## Hints of deeds -/

/-- The reason that a deed fails for, if it does, is told in one line. -/
def Deed.FailsInOneLine (d : Deed) : Prop := ∀ hint, d = .failure hint → OneLine hint

/-- An action fails only for want of an argument of its own, whose name is one word. -/
theorem Action.failsInOneLine_deed (a : Action) (args : Arguments) :
    (a.deed args).FailsInOneLine := by
  have missing {name : String} (plain : OneLine name) :
      (Deed.failure (Diagnostic.missingArgument name).message).FailsInOneLine := by
    rintro hint ⟨⟩
    exact Diagnostic.oneLine_message (by simpa [Diagnostic.quoted] using plain)
  have number {name : String} {next : Float → Deed} (plain : OneLine name)
      (h : ∀ value, (next value).FailsInOneLine) : (withNumber args name next).FailsInOneLine :=
    withNumber_of (missing plain) h
  cases a with
  | horizontalLine => exact number (by decide) fun _ => nofun
  | verticalLine => exact number (by decide) fun _ => nofun
  | line => exact number (by decide) fun _ => number (by decide) fun _ => nofun
  | arc =>
    exact number (by decide) fun _ => number (by decide) fun _ => number (by decide) fun _ => nofun
  | reference =>
    unfold deed
    cases args.text? "url" with
    | some url => exact nofun
    | none => exact missing (by decide)

/-- The hint of a position is one line. -/
theorem Cursor.oneLine_hint (c : Cursor) : OneLine c.hint :=
  ((oneLine_formatNumber c.x).append (by decide)).append (oneLine_formatNumber c.y)

/-- The hint of a picture with an entry is one line. Why a picture cannot be had is not told. -/
theorem EntryState.oneLine_status (state : EntryState) : OneLine state.status := by
  have size (p : Picture) : OneLine p.sizeLabel :=
    ((oneLine_numeral p.width).append (by decide)).append (oneLine_numeral p.height)
  match state with
  | .downloaded picture true => exact OneLine.append (by decide) (size picture)
  | .downloaded picture false => exact OneLine.append (by decide) (size picture)
  | .failed reason =>
    have told : OneLine failedHint := by decide
    exact told

/-- The hint of a deed is one line, if the reason that it may fail for is. -/
theorem Deed.oneLine_hint {d : Deed} (fails : d.FailsInOneLine) (cursor : Cursor)
    (look : String → Option EntryState) : OneLine (d.hint cursor look) := by
  cases d with
  | silent => exact List.not_mem_nil
  | failure reason => exact fails reason rfl
  | horizontal x => exact Cursor.oneLine_hint _
  | vertical y => exact Cursor.oneLine_hint _
  | straight x y => exact Cursor.oneLine_hint _
  | curve x y radius flip => exact Cursor.oneLine_hint _
  | picture url x y =>
    have downloading : OneLine downloadingHint := by decide
    rw [Deed.hint]
    split
    · exact EntryState.oneLine_status _
    · exact downloading

/-! ## Hints of a pass -/

namespace Registry

/-- A registry whose parameters are spelled in texts of one line. -/
def IsPlain (r : Registry) : Prop := ∀ c ∈ r.commands, ∀ p ∈ c.params, p.IsPlain

/-- A line of a script fails in one line, for what it quotes comes from that line or from the
commands. -/
theorem failsInOneLine_deed {r : Registry} (plain : r.IsPlain) {source : String}
    (single : OneLine source) : (r.deed (Line.read source)).FailsInOneLine := by
  cases read : Line.read source with
  | silent => exact nofun
  | call name tokens =>
    obtain ⟨named, words⟩ := Line.oneLine_words single read
    simp only [deed]
    cases found : r.lookup? name with
    | none =>
      rintro hint ⟨⟩
      exact Diagnostic.oneLine_message (by simpa [Diagnostic.quoted] using named)
    | some command =>
      rw [lookup?_eq_find?] at found
      have among := List.mem_of_find?_eq_some found
      show (command.deed tokens).FailsInOneLine
      rw [Command.deed]
      split_ifs
      · exact command.action.failsInOneLine_deed _
      · rintro hint ⟨⟩
        exact Command.oneLine_hint (plain command among) words

/-- No hint of a pass breaks its line. -/
theorem oneLine_hints {r : Registry} (plain : r.IsPlain) (view : Viewport) (script : String)
    (cache : Cache) (generation : Nat) :
    ∀ hint ∈ (runPass r view script cache generation).report.hints, OneLine hint := by
  intro hint among
  obtain ⟨i, found⟩ := List.mem_iff_getElem?.mp among
  obtain ⟨line, there, reached, rfl⟩ := r.hint_traceLines view 1 _ .origin cache found
  rw [readScript, List.getElem?_map, Option.map_eq_some_iff] at there
  obtain ⟨source, at_i, rfl⟩ := there
  -- The script was cut at its line breaks, so there is none in the line.
  have single : OneLine source := Text.not_mem_of_mem_pieces (List.mem_of_getElem? at_i)
  exact Deed.oneLine_hint (r.failsInOneLine_deed plain single) reached _

end Registry

/-- The names and words of the built-in commands do not break a line. -/
theorem builtinRegistry_isPlain : builtinRegistry.IsPlain := by
  unfold Registry.IsPlain
  decide

end Linework
