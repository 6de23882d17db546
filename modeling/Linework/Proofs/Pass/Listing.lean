import Linework.Script
import Linework.Proofs.Pass.OneLine

/-!
# `Linework.Proofs.Pass.Listing`: listings keep lines and hints together

A listing has two kinds of rows, the lines of the source and the hints, and as texts they cannot
always be told apart: a line of the source may well read like an indented hint. `Listing.layOut`
keeps the kinds and `Listing.Row.text` forgets them again (`Listing.map_text_layOut`). So what is
in a listing, and where, is said about kinds of rows.

The line with index `i` stands after the lines before it and their hints that are not empty
(`Listing.place`). The row after it is its hint, if that is not empty, and a line of the source
otherwise (`Listing.getElem?_layOut`).

For all of this to be seen in the text, every row must be one line. The lines of the source are by
themselves, and the hints of a pass are by `Registry.oneLine_hints`.
-/

set_option autoImplicit false

namespace Linework

/-! ## Listings by the kinds of their rows -/

namespace Listing

/-- A row of a listing: a line of the source, or a hint. -/
inductive Row where
  | source (line : String)
  | hint (text : String)

namespace Row

/-- The row as it is shown. -/
def text : Row → String
  | source line => Text.trimEnd line
  | hint shown => indent ++ shown

/-- The line of the source, if the row is one. -/
def source? : Row → Option String
  | source line => some line
  | hint _ => none

/-- The hint, if the row is one. -/
def hint? : Row → Option String
  | source _ => none
  | hint shown => some shown

end Row

/-- The row of a hint; an empty hint has none. -/
def hintRows (hint : String) : List Row :=
  if hint = "" then [] else [.hint hint]

/-- The rows of a listing, told apart. -/
def layOut : List String → List String → List Row
  | [], _ => []
  | line :: lines, [] => .source line :: layOut lines []
  | line :: lines, hint :: hints => .source line :: (hintRows hint ++ layOut lines hints)

/-- How many hints have a row. -/
def hintCount (hints : List String) : Nat := hints.countP (· ≠ "")

/-- Where the line with this index stands in a listing. -/
def place (hints : List String) (i : Nat) : Nat := i + hintCount (hints.take i)

/-- The row of a hint is shown as the line of the hint. -/
theorem map_text_hintRows (hint : String) : (hintRows hint).map Row.text = hintLines hint := by
  rw [hintRows, hintLines]
  split_ifs <;> rfl

/-- A listing whose kinds are forgotten is the listing of texts. -/
theorem map_text_layOut (lines hints : List String) :
    (layOut lines hints).map Row.text = rows lines hints := by
  induction lines generalizing hints with
  | nil => rfl
  | cons line lines ih =>
    cases hints with
    | nil => rw [layOut, rows, List.map_cons, ih, Row.text]
    | cons hint hints =>
      rw [layOut, rows, List.map_cons, List.map_append, map_text_hintRows, ih, Row.text]

/-- Without the hints the lines of the source are left, all of them and in order. -/
theorem filterMap_source?_layOut (lines hints : List String) :
    (layOut lines hints).filterMap Row.source? = lines := by
  have none (hint : String) : (hintRows hint).filterMap Row.source? = [] := by
    rw [hintRows]
    split_ifs <;> rfl
  induction lines generalizing hints with
  | nil => rfl
  | cons line lines ih =>
    cases hints with
    | nil => simp [layOut, Row.source?, ih]
    | cons hint hints => simp [layOut, Row.source?, none, ih]

/-- Without the lines the hints are left that are not empty. There must be no more hints than
lines, for a hint without a line has no row. -/
theorem filterMap_hint?_layOut {lines hints : List String} (enough : hints.length ≤ lines.length) :
    (layOut lines hints).filterMap Row.hint? = hints.filter (· ≠ "") := by
  have own (hint : String) : (hintRows hint).filterMap Row.hint? = [hint].filter (· ≠ "") := by
    rw [hintRows]
    split_ifs with empty <;> simp [Row.hint?, empty]
  induction lines generalizing hints with
  | nil =>
    obtain rfl : hints = [] := List.length_eq_zero_iff.mp (Nat.le_zero.mp enough)
    rfl
  | cons line lines ih =>
    cases hints with
    | nil =>
      have rest := @ih [] (Nat.zero_le _)
      rw [layOut, List.filterMap_cons, rest]
      rfl
    | cons hint hints =>
      have rest := ih (Nat.le_of_succ_le_succ enough)
      rw [layOut, List.filterMap_cons, List.filterMap_append, own, rest, ← List.filter_append]
      rfl

/-! ## Places -/

/-- A hint has one row if it counts, and none otherwise. -/
theorem length_hintRows (hint : String) : (hintRows hint).length = hintCount [hint] := by
  rw [hintRows, hintCount]
  split_ifs with empty <;> simp [empty]

/-- The hints that count are the first, if it does, and those among the others. -/
theorem hintCount_cons (hint : String) (hints : List String) :
    hintCount (hint :: hints) = (hintRows hint).length + hintCount hints := by
  rw [length_hintRows, hintCount, hintCount, hintCount, ← List.countP_append]
  rfl

/-- A listing has as many rows as there are lines and hints that count. -/
theorem length_layOut {lines hints : List String} (enough : hints.length ≤ lines.length) :
    (layOut lines hints).length = lines.length + hintCount hints := by
  induction lines generalizing hints with
  | nil =>
    obtain rfl : hints = [] := List.length_eq_zero_iff.mp (Nat.le_zero.mp enough)
    rfl
  | cons line lines ih =>
    cases hints with
    | nil =>
      have rest := @ih [] (Nat.zero_le _)
      rw [layOut, List.length_cons, rest, List.length_cons]
      omega
    | cons hint hints =>
      have rest := ih (Nat.le_of_succ_le_succ enough)
      rw [layOut, List.length_cons, List.length_append, rest, hintCount_cons, List.length_cons]
      omega

/-- Without hints each line stands at its own index. -/
theorem place_nil (i : Nat) : place [] i = i := by
  rw [place, List.take_nil]
  rfl

/-- Behind the first line and its hint the places are those in the rest of the listing. -/
theorem place_cons_succ (hint : String) (hints : List String) (i : Nat) :
    place (hint :: hints) (i + 1) = (hintRows hint).length + place hints i + 1 := by
  rw [place, place, List.take_succ_cons, hintCount_cons]
  omega

/-- A listing begins with a line of the source. -/
theorem ne_hint_of_layOut_zero {lines hints : List String} {shown : String} :
    (layOut lines hints)[0]? ≠ some (.hint shown) := by
  cases lines with
  | nil => exact nofun
  | cons line lines => cases hints <;> exact nofun

/-- Each line of the source stands in its place, and the row after it is a hint exactly if the line
has one that is not empty. -/
theorem getElem?_layOut {lines : List String} {i : Nat} {line : String}
    (here : lines[i]? = some line) (hints : List String) :
    (layOut lines hints)[place hints i]? = some (.source line) ∧
      ∀ shown, (layOut lines hints)[place hints i + 1]? = some (.hint shown) ↔
        hints[i]? = some shown ∧ shown ≠ "" := by
  -- The induction is on the lines. The line with the index is the first one, or it is one of the
  -- others and its place lies behind the first line and the row of its hint.
  induction lines generalizing i hints with
  | nil => cases here
  | cons first lines ih =>
    cases i with
    | zero =>
      cases here
      cases hints with
      | nil => exact ⟨rfl, fun shown => iff_of_false ne_hint_of_layOut_zero nofun⟩
      | cons hint hints =>
        refine ⟨rfl, fun shown => ?_⟩
        show (hintRows hint ++ layOut lines hints)[0]? = _ ↔ some hint = some shown ∧ _
        rw [hintRows]
        split_ifs with empty
        · refine iff_of_false ne_hint_of_layOut_zero ?_
          rintro ⟨⟨⟩, filled⟩
          exact filled empty
        · constructor
          · rintro ⟨⟩
            exact ⟨rfl, empty⟩
          · rintro ⟨⟨⟩, -⟩
            rfl
    | succ i =>
      have there : lines[i]? = some line := here
      cases hints with
      | nil =>
        have rest := ih there []
        rw [place_nil] at rest ⊢
        exact rest
      | cons hint hints =>
        have rest := ih there hints
        -- Behind the first line and its hint the rows are those of the other lines.
        have moved (k : Nat) :
            (layOut (first :: lines) (hint :: hints))[(hintRows hint).length + k + 1]?
              = (layOut lines hints)[k]? := by
          rw [layOut, List.getElem?_cons_succ, List.getElem?_append_right (Nat.le_add_right _ _),
            Nat.add_sub_cancel_left]
        rw [place_cons_succ, moved]
        refine ⟨rest.1, fun shown => ?_⟩
        rw [Nat.add_assoc (hintRows hint).length, moved]
        exact rest.2 shown

end Listing

/-! ## Listings of a pass -/

namespace Text

/-- Texts of one line with a line break after each are the lines of the whole, and nothing comes
after the last line break. -/
theorem lines_join_ended {rows : List String} (single : ∀ row ∈ rows, OneLine row) :
    lines (String.join (rows.map (· ++ "\n"))) = rows ++ [""] := by
  induction rows with
  | nil => rfl
  | cons row rows ih =>
    obtain ⟨first, rest⟩ := List.forall_mem_cons.mp single
    rw [List.map_cons, String.join_cons, lines]
    have cut := pieces_append '\n' row (String.join (rows.map (· ++ "\n")))
    rw [pieces_of_not_mem first] at cut
    exact cut.trans (congrArg (row :: ·) (ih rest))

end Text

/-- There are no more hints than lines, and a pass that halts does so at the line of its last
hint. -/
theorem Registry.hints_end (r : Registry) (view : Viewport) (script : String) (cache : Cache)
    (generation : Nat) :
    let report := (runPass r view script cache generation).report
    report.hints.length ≤ (Text.lines script).length ∧
      ∀ n, report.verdict = .halted n → report.hints.length = n := by
  intro report
  have count : (readScript script).length = (Text.lines script).length := List.length_map _
  rw [← count]
  rcases r.verdict_traceLines view 0 (readScript script) .origin cache with
    ⟨completed, whole⟩ | ⟨halted, -, part⟩
  · exact ⟨whole.le, fun n stopped => absurd (completed.symm.trans stopped) nofun⟩
  · refine ⟨part, fun n stopped => ?_⟩
    have same := Verdict.halted.inj (halted.symm.trans stopped)
    rw [Nat.zero_add] at same
    exact same

/-- Every row of a listing of single lines and single hints is one line. -/
theorem Listing.oneLine_text {lines hints : List String} (enough : hints.length ≤ lines.length)
    (singleLines : ∀ line ∈ lines, OneLine line) (singleHints : ∀ hint ∈ hints, OneLine hint) :
    ∀ row ∈ (layOut lines hints).map Row.text, OneLine row := by
  intro shown among
  -- The text alone does not tell where a row comes from, but its kind does.
  obtain ⟨row, laid, rfl⟩ := List.mem_map.mp among
  -- Each kind of row comes from the list that the kind was laid out from.
  cases row with
  | source line =>
    have kept : line ∈ (layOut lines hints).filterMap Row.source? :=
      List.mem_filterMap.mpr ⟨_, laid, rfl⟩
    rw [filterMap_source?_layOut] at kept
    exact Text.oneLine_trimEnd (singleLines line kept)
  | hint text =>
    have told : text ∈ (layOut lines hints).filterMap Row.hint? :=
      List.mem_filterMap.mpr ⟨_, laid, rfl⟩
    rw [filterMap_hint?_layOut enough] at told
    have indented : OneLine indent := by decide
    exact indented.append (singleHints text (List.mem_of_mem_filter told))

/-- A listing of a script and the hints of a pass over it consists of as many lines as the script
has lines and hints that are not empty. Each line of the script stands in its place, and the row
after it is a hint exactly if it has one that is not empty. Without the hints the lines of the
script are left, and without those the hints, each of them once. No hint comes after a line that
is behind the one the pass halted at. -/
theorem annotate_keeps_lines_and_hints (view : Viewport) (script : String) (cache : Cache)
    (generation : Nat) :
    let report := (runPass builtinRegistry view script cache generation).report
    let source := Text.lines script
    let listing := Listing.layOut source report.hints
    (∀ hint ∈ report.hints, '\n' ∉ hint.toList) ∧
    Text.lines (annotate script report.hints) = listing.map Listing.Row.text ++ [""] ∧
    listing.length = source.length + Listing.hintCount report.hints ∧
    (∀ (i : Nat) (line : String), source[i]? = some line →
      listing[Listing.place report.hints i]? = some (.source line) ∧
      ∀ hint, listing[Listing.place report.hints i + 1]? = some (.hint hint) ↔
        report.hints[i]? = some hint ∧ hint ≠ "") ∧
    listing.filterMap Listing.Row.source? = source ∧
    listing.filterMap Listing.Row.hint? = report.hints.filter (· ≠ "") ∧
    ∀ (n i : Nat) (line : String), report.verdict = .halted n → n ≤ i → source[i]? = some line →
      ∀ hint, listing[Listing.place report.hints i + 1]? ≠ some (.hint hint) := by
  intro report source listing
  have single := Registry.oneLine_hints builtinRegistry_isPlain view script cache generation
  obtain ⟨enough, last⟩ := builtinRegistry.hints_end view script cache generation
  refine ⟨single, ?_, Listing.length_layOut enough,
    fun i line here => Listing.getElem?_layOut here report.hints,
    Listing.filterMap_source?_layOut _ _, Listing.filterMap_hint?_layOut enough, ?_⟩
  · have rows : ∀ row ∈ listing.map Listing.Row.text, OneLine row :=
      Listing.oneLine_text enough (fun line among => Text.not_mem_of_mem_pieces among) single
    rw [← Text.lines_join_ended rows, Listing.map_text_layOut]
    rfl
  · -- A pass halts at the line of its last hint, and the line here is behind that.
    intro n i line halted later here hint follows
    have hinted := ((Listing.getElem?_layOut here report.hints).2 hint).mp follows
    obtain ⟨within, -⟩ := List.getElem?_eq_some_iff.mp hinted.1
    have ended : report.hints.length = n := last n halted
    omega

/-- A path line with its hint, a comment without one, the line that halts a pass, and one behind. -/
example :
    annotate "h 5 \n// half\nbogus\nh 5"
        (runPass builtinRegistry .initial "h 5 \n// half\nbogus\nh 5" .empty 1).report.hints
      = "h 5\n    5×0\n// half\nbogus\n    unknown command 'bogus'\nh 5\n" := by
  decide +kernel

end Linework
