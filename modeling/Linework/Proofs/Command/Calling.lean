import Linework.Command.Builtin
import Linework.Proofs.Command.Accepted
import Linework.Proofs.Pass.Alignment
import Linework.Proofs.Text.Cutting

/-!
# `Linework.Proofs.Command.Calling`: names that call their command

A registry takes a name if it is not empty and has no blank in it. A line that is just the name is
then read as it stands: there is nothing to trim, and nothing to cut it at (`read_of_usable`). One
thing can still go wrong. A name may begin with the comment mark, and a line that does says
nothing, so the command is never called by that name. `calls_iff_no_comment` says that this is
all: every other name of a registry calls its command.
-/

set_option autoImplicit false

namespace Linework

/-! ## A name as a line -/

section Usable

variable {name : String}

/-- A line that is just a usable name calls it without tokens, unless it begins with the comment
mark. -/
theorem Line.read_of_usable (usable : Command.isUsableName name = true) :
    Line.read name = if Text.hasHead commentMark name then .silent else .call name [] := by
  obtain ⟨filled, clean⟩ := Command.isUsableName_iff.mp usable
  have noSpace : ' ' ∉ name.toList := fun among => absurd (clean ' ' among) (by decide)
  -- Without a space in it the name is a single word.
  have words : Line.words name = [name] := by
    rw [Line.words, Text.pieces_of_not_mem noSpace, List.map_singleton, Text.trim_of_no_blank clean]
  simp [Line.read, Text.trim_of_no_blank clean, Line.saysNothing, filled, words]

/-- A script that is just a usable name has one line, and the line is read as above. -/
theorem readScript_of_usable (usable : Command.isUsableName name = true) :
    readScript name = [if Text.hasHead commentMark name then .silent else .call name []] := by
  have clean := (Command.isUsableName_iff.mp usable).2
  have noBreak : '\n' ∉ name.toList := fun among => absurd (clean '\n' among) (by decide)
  rw [readScript, Text.lines, Text.pieces_of_not_mem noBreak, List.map_singleton,
    Line.read_of_usable usable]

end Usable

/-! ## One line -/

/-- The report is that of a script of one line, which ended in this way. -/
def Report.Tells (report : Report) : Except String Effect → Prop
  | .ok effect => report.hints = [effect.hint] ∧ report.verdict = .completed
  | .error hint => report.hints = [hint] ∧ report.verdict = .halted 1

/-- A script of one line goes as the line does. -/
theorem tells_runPass {script : String} {line : Line} (one : readScript script = [line])
    (r : Registry) (view : Viewport) (cache : Cache) (generation : Nat) :
    (runPass r view script cache generation).report.Tells (r.runLine view .origin cache line) := by
  simp only [runPass, one, r.runLine_eq_enact, r.traceLines_cons, Deed.enact]
  cases (r.deed line).fails with
  | true => exact ⟨rfl, rfl⟩
  | false => exact ⟨rfl, rfl⟩

/-- Whatever a call comes to, it leaves a hint that is not empty. -/
theorem not_tells_call {report : Report} (nothing : report.hints = [""]) (r : Registry)
    (view : Viewport) (cursor : Cursor) (cache : Cache) (name : String) (tokens : List String) :
    ¬ report.Tells (r.runLine view cursor cache (.call name tokens)) := by
  have filled : (r.deed (.call name tokens)).hint cursor cache.get? ≠ "" := by
    rw [ne_eq, Registry.hint_eq_empty_iff]
    simp
  rw [Registry.runLine_eq_enact, Deed.enact]
  -- The hint is the only one of the report, whether the line fails or not.
  split
  · rintro ⟨hints, -⟩
    exact filled (List.head_eq_of_cons_eq (hints.symm.trans nothing))
  · rintro ⟨hints, -⟩
    exact filled (List.head_eq_of_cons_eq (hints.symm.trans nothing))

/-- Any name of a command in a registry is looked up as that command. As a script by itself it
calls the command without tokens, and the report is of how the command takes that, just if the
name does not begin with the comment mark. A name that does is passed over as a comment. -/
theorem calls_iff_no_comment {commands : List Command} {r : Registry}
    (built : Registry.build commands = .ok r) {c : Command} (among : c ∈ commands) {name : String}
    (named : name ∈ c.names) (view : Viewport) (cache : Cache) (generation : Nat) :
    let report := (runPass r view name cache generation).report
    r.lookup? name = some c ∧
    readScript name = [if Text.hasHead commentMark name then .silent else .call name []] ∧
    (report.Tells (c.invoke [] view .origin cache) ↔ Text.hasHead commentMark name = false) ∧
    (Text.hasHead commentMark name = true → report.hints = [""] ∧ report.verdict = .completed) := by
  intro report
  have found : r.lookup? name = some c := Registry.lookup?_of_build built among named
  have valid := (Registry.build_eq_ok_iff.mp built).1 c among
  have read := readScript_of_usable (Command.isUsableName_of_validate valid named)
  have told := tells_runPass read r view cache generation
  have call : r.runLine view .origin cache (.call name []) = c.invoke [] view .origin cache :=
    Registry.runLine_call found view .origin cache []
  refine ⟨found, read, ?_⟩
  -- The registry takes both kinds of names, and only the line tells them apart.
  cases comment : Text.hasHead commentMark name with
  | false =>
    simp only [comment, Bool.false_eq_true, if_false, call] at told
    exact ⟨iff_of_true told rfl, by simp⟩
  | true =>
    simp only [comment, if_true] at told
    have missed := not_tells_call told.1 r view .origin cache name []
    rw [call] at missed
    exact ⟨iff_of_false missed (by simp), fun _ => told⟩

/-- A command whose name begins like a comment, and which goes by an ordinary name as well. -/
def slashedLine : Command := { Command.verticalLine with name := "//v", aliases := ["v"] }

/-- By its ordinary name the command is called beside another one. -/
theorem slashedLine_called :
    let r : Registry := ⟨[.horizontalLine, slashedLine]⟩
    Registry.build [.horizontalLine, slashedLine] = .ok r ∧ "v" ∈ slashedLine.names ∧
    Text.hasHead commentMark "v" = false ∧
    (runPass r .initial "v" .empty 1).report.Tells
      (slashedLine.invoke [] .initial .origin .empty) := by
  intro r
  have built : Registry.build [.horizontalLine, slashedLine] = .ok r := by rfl
  have among : slashedLine ∈ [Command.horizontalLine, slashedLine] :=
    List.mem_cons_of_mem _ List.mem_cons_self
  have named : "v" ∈ slashedLine.names := by decide
  have plain : Text.hasHead commentMark "v" = false := by decide
  have called := calls_iff_no_comment built among named .initial .empty 1
  exact ⟨built, named, plain, called.2.2.1.mpr plain⟩

/-- By the name that begins like a comment it is not: the pass goes through without a word, and a
call would have halted it for want of an argument. -/
theorem slashedLine_passed_over :
    let r : Registry := ⟨[slashedLine]⟩
    let report := (runPass r .initial "//v" .empty 1).report
    Registry.build [slashedLine] = .ok r ∧ "//v" ∈ slashedLine.names ∧
    report.hints = [""] ∧ report.verdict = .completed ∧
    slashedLine.invoke [] .initial .origin .empty = .error "argument missing: y" ∧
    ¬ report.Tells (slashedLine.invoke [] .initial .origin .empty) := by
  intro r report
  have missing : slashedLine.invoke [] .initial .origin .empty = .error "argument missing: y" := rfl
  have silent : report.hints = [""] := by decide +kernel
  refine ⟨by rfl, by decide, silent, by decide +kernel, missing, ?_⟩
  rw [missing]
  rintro ⟨hints, -⟩
  exact absurd (silent.symm.trans hints) (by decide)

end Linework
