import Linework.Proofs.Command.Calling
import Linework.Proofs.Pass.Composition
import Linework.Proofs.Pass.Figure
import Linework.Proofs.Pass.Interference
import Linework.Storage.Document

/-!
# `Linework.Proofs.Pass.Importing`: a line for a picture on top

An import writes a name into a line, and a pass reads the line back. The line is cut at its
spaces, and the words are trimmed. So a name comes back as it was if there is no space in it and
nothing to trim (`url?_importLine_iff`). A name with other blanks around it comes back without
them, as another name, and a name with a space in it comes back as several words, which are too
many for the line (`fails_importLine`).

Where the name comes back, the pass places its picture first and goes on with the script that was
there before (`continues_importLine`).
-/

set_option autoImplicit false

namespace Linework

/-- The line that an import puts on top of the script. -/
def importLine (name : String) : String := "reference " ++ name ++ " 0 0"

/-- The line stands on top, with a line break after it. -/
theorem prependReference_eq (script name : String) :
    prependReference script name = importLine name ++ "\n" ++ script := by
  apply String.toList_inj.mp
  simp [prependReference, importLine]

section Line

variable {name : String}

/-- The line is one line, if the name is. -/
theorem readScript_importLine (oneLine : '\n' ∉ name.toList) :
    readScript (importLine name) = [Line.read (importLine name)] := by
  have noBreak : '\n' ∉ (importLine name).toList := by simp [importLine, oneLine]
  rw [readScript, Text.lines, Text.pieces_of_not_mem noBreak, List.map_singleton]

/-- The new script is the line and then the lines that were there. -/
theorem readScript_prependReference (script : String) (oneLine : '\n' ∉ name.toList) :
    readScript (prependReference script name)
      = Line.read (importLine name) :: readScript script := by
  rw [prependReference_eq, readScript_append, readScript_importLine oneLine, List.singleton_append]

/-! ## The words of the line -/

/-- There is nothing to trim: the line begins with a letter and ends with a digit. -/
theorem trim_importLine (name : String) : Text.trim (importLine name) = importLine name := by
  have ends : (importLine name).toList
      = 'r' :: (("eference " ++ name ++ " 0 ").toList ++ ['0']) := by
    simp [importLine]
  rw [Text.trim, ends, Text.strip_of_ends (by decide) (by decide), ← ends, String.ofList_toList]

/-- The name comes back in as many words as it has pieces between its spaces. -/
theorem read_importLine (name : String) :
    Line.read (importLine name)
      = .call "reference" ((Text.pieces ' ' name).map Text.trim ++ ["0", "0"]) := by
  -- The spaces that the line adds are cuts of their own, apart from those in the name.
  have spaced : importLine name
      = "reference" ++ String.singleton ' ' ++ (name ++ String.singleton ' ' ++ "0 0") := by
    apply String.toList_inj.mp
    simp [importLine]
  have words : Line.words (importLine name)
      = "reference" :: ((Text.pieces ' ' name).map Text.trim ++ ["0", "0"]) := by
    rw [Line.words, spaced, Text.pieces_append, Text.pieces_append, List.map_append,
      List.map_append]
    rfl
  have called : Line.saysNothing (importLine name) = false := by
    simp [Line.saysNothing, importLine, Text.hasHead, commentMark, List.isPrefixOf]
  rw [Line.read, trim_importLine, called, words]
  rfl

/-! ## What the line does -/

/-- The figure of a picture comes from the deed of a picture and from no other. -/
theorem Deed.figure?_eq_picture_iff {d : Deed} {url : String} {x y : Float} :
    d.figure? = some (.picture url ⟨x, y⟩) ↔ d = .picture url x y := by
  cases d <;> simp [figure?]

/-- A picture takes three words at most. -/
theorem Line.picture?_eq_none_of_length {tokens : List String} (many : 3 < tokens.length) :
    picture? tokens = none := by
  match tokens with
  | [] | [_] | [_, _] | [_, _, _] => simp at many
  | _ :: _ :: _ :: _ :: _ => rfl

variable {r : Registry} (found : r.lookup? "reference" = some .reference)
include found

/-- What the line draws is read off its words behind the name of the command. -/
theorem figure?_importLine (name : String) :
    (r.deed (Line.read (importLine name))).figure?
      = Line.picture? ((Text.pieces ' ' name).map Text.trim ++ ["0", "0"]) := by
  rw [read_importLine, Registry.deed, found, ← figure?_reference]

/-- A name without a space is looked up, without the blanks around it. -/
theorem deed_importLine (noSpace : ' ' ∉ name.toList) :
    r.deed (Line.read (importLine name)) = .picture (Text.trim name) 0.0 0.0 := by
  have zero : parseNumber "0" = some 0.0 := by decide +kernel
  have figure := figure?_importLine found name
  rw [Text.pieces_of_not_mem noSpace] at figure
  refine Deed.figure?_eq_picture_iff.mp (figure.trans ?_)
  simp [Line.picture?, zero]

/-- A name with a space in it is too many words. -/
theorem fails_importLine (space : ' ' ∈ name.toList) :
    (r.deed (Line.read (importLine name))).fails = true := by
  have pieces := Text.two_le_length_pieces space
  -- Two pieces or more of the name, and the two zeros behind them, are four words at least.
  rw [Deed.fails_eq, figure?_importLine found, Line.picture?_eq_none_of_length]
  · rfl
  · simp
    omega

/-- The line looks up the name that it was made for, unless the name has a space in it or blanks
around it. -/
theorem url?_importLine_iff (name : String) :
    (r.deed (Line.read (importLine name))).url? = some name
      ↔ ' ' ∉ name.toList ∧ Text.trim name = name := by
  -- With a space the line fails, and without one what is looked up is the trimmed name.
  by_cases space : ' ' ∈ name.toList
  · have fails := fails_importLine found space
    cases deed : r.deed (Line.read (importLine name)) with
    | failure hint => simp [Deed.url?, space]
    | _ =>
      rw [deed] at fails
      cases fails
  · simp [deed_importLine found space, Deed.url?, space]

/-! ## The pass -/

/-- A pass over the script with the line on top goes as the pass over the script, the picture's
hint and operations before those of the lines. -/
theorem runPass_prependReference (oneLine : '\n' ∉ name.toList) (noSpace : ' ' ∉ name.toList)
    (view : Viewport) (script : String) (cache : Cache) (generation : Nat) :
    let placed := Deed.picture (Text.trim name) 0.0 0.0
    let rest := r.traceLines view 1 (readScript script) .origin cache
    let whole := runPass r view (prependReference script name) cache generation
    whole.report.hints = placed.hint .origin cache.get? :: rest.hints ∧
    whole.report.cursor = rest.cursor ∧ whole.report.verdict = rest.verdict.shift 1 ∧
    whole.ops = .clear :: .moveTo view.panX view.panY ::
      (placed.ops view .origin cache.get? ++ (rest.ops ++ [.stroke])) := by
  intro placed rest whole
  have deed : r.deed (Line.read (importLine name)) = placed := deed_importLine found noSpace
  -- The other lines cannot tell that they stand one line further down, nor what was asked for.
  have trace : r.traceLines view 1 (readScript (prependReference script name)) .origin cache
      = .after ⟨placed.hint .origin cache.get?, .origin, placed.ops view .origin cache.get?,
            cache.requestAll placed.url?.toList⟩
          { rest with
            verdict := rest.verdict.shift 1
            cache := (cache.requestAll placed.url?.toList).requestAll
              (r.wanted (readScript script)) } := by
    rw [readScript_prependReference script oneLine, r.traceLines_cons, deed,
      if_neg (by simp [placed, Deed.fails]), r.traceLines_shift, r.traceLines_requestAll]
    rfl
  simp only [whole, runPass, trace]
  exact ⟨rfl, rfl, rfl, by simp [Trace.after]⟩

/-- A pass halts at the line if the name has a space in it. -/
theorem runPass_prependReference_of_space (oneLine : '\n' ∉ name.toList)
    (space : ' ' ∈ name.toList) (view : Viewport) (script : String) (cache : Cache)
    (generation : Nat) :
    let whole := runPass r view (prependReference script name) cache generation
    whole.report.hints.length = 1 ∧ whole.report.verdict = .halted 1 ∧
      DrawOp.withoutImages whole.ops = whole.ops := by
  intro whole
  simp only [whole, runPass, readScript_prependReference script oneLine, r.traceLines_cons,
    if_pos (fails_importLine found space)]
  exact ⟨rfl, rfl, rfl⟩

end Line

/-- But for pictures, a pass draws what its lines draw, between the operations at its ends. -/
theorem withoutImages_ops_runPass (r : Registry) (view : Viewport) (script : String) (cache : Cache)
    (generation : Nat) :
    DrawOp.withoutImages (runPass r view script cache generation).ops
      = .clear :: .moveTo view.panX view.panY :: DrawOp.withoutImages
          ((r.traceLines view 1 (readScript script) .origin cache).ops ++ [.stroke]) := rfl

end Linework
