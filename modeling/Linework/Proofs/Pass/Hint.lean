import Linework.Proofs.Pass.Deed
import Linework.Text

/-!
# `Linework.Proofs.Pass.Hint`: telling hints apart

Two hints of a picture differ only by whether its arrival was dealt with, and
`readAsCached` reads the one as the other: `downloaded, 4×3` as `cached, 4×3`.
It makes the hint of an entry that of the settled entry
(`readAsCached_status_settled`).

`downloadingHint` is the hint of a picture that is on its way, and of nothing else.
It has neither a blank nor a multiplication sign in it, and every other hint that is not
empty has one of them:

* `Registry.hint_ne_downloadingHint_of_fails`: why a line fails never reads like that,
* `Deed.hint_ne_downloadingHint`: nor does the hint of a line whose picture, if it places
  one, is known.
-/

set_option autoImplicit false

namespace Linework

/-! ## Reading a hint as if its picture were cached -/

/-- The hint that a fresh picture's hint becomes once the picture is cached. Other
hints stay. -/
def readAsCached (hint : String) : String :=
  match Text.afterHead? "downloaded, " hint with
  | some size => "cached, " ++ size
  | none => hint

/-- What follows a head is what was put behind it. -/
theorem afterHead?_append (head rest : String) : Text.afterHead? head (head ++ rest) = some rest := by
  have split : (head ++ rest).toList.drop head.length = rest.toList := by
    rw [String.toList_append, ← String.length_toList, List.drop_left]
  rw [Text.afterHead?, split, String.ofList_toList]
  simp [Text.hasHead]

/-- The hint of a fresh picture is read as that of a cached one. -/
theorem readAsCached_downloaded (size : String) :
    readAsCached ("downloaded, " ++ size) = "cached, " ++ size := by
  rw [readAsCached, afterHead?_append]

/-- The hint of a cached picture stays as it is. -/
theorem readAsCached_cached (size : String) :
    readAsCached ("cached, " ++ size) = "cached, " ++ size := by
  have other : Text.afterHead? "downloaded, " ("cached, " ++ size) = none := by
    simp [Text.afterHead?, Text.hasHead]
  rw [readAsCached, other]

/-- Read as cached, an entry's hint is that of the settled entry. -/
theorem readAsCached_status_settled (state : EntryState) :
    readAsCached state.settled.status = readAsCached state.status := by
  cases state with
  | failed reason => rfl
  | downloaded picture fresh =>
    show readAsCached ("cached, " ++ picture.sizeLabel) = _
    cases fresh with
    | true => rw [EntryState.status, readAsCached_downloaded, readAsCached_cached]
    | false => rfl

/-! ## The hint of a picture on its way -/

/-- A hint with a character that `downloadingHint` lacks is another one. -/
theorem ne_downloadingHint_of_mem {hint : String} {mark : Char} (present : mark ∈ hint.toList)
    (lacking : mark ∉ downloadingHint.toList) : hint ≠ downloadingHint := by
  rintro rfl
  exact lacking present

/-- The hint of a picture on its way is one word. -/
theorem blank_not_mem_downloadingHint : ' ' ∉ downloadingHint.toList := by decide

/-- And it gives no size. -/
theorem times_not_mem_downloadingHint : '×' ∉ downloadingHint.toList := by decide

/-- A character of the first part is one of the whole. -/
theorem mem_toList_append_left {mark : Char} {a : String} (h : mark ∈ a.toList) (b : String) :
    mark ∈ (a ++ b).toList := by
  rw [String.toList_append]
  exact List.mem_append_left _ h

/-- And so is a character of the second. -/
theorem mem_toList_append_right {mark : Char} (a : String) {b : String} (h : mark ∈ b.toList) :
    mark ∈ (a ++ b).toList := by
  rw [String.toList_append]
  exact List.mem_append_right _ h

/-- No hint is read as that of a picture on its way, unless it is one. -/
theorem readAsCached_eq_downloadingHint_iff (hint : String) :
    readAsCached hint = downloadingHint ↔ hint = downloadingHint := by
  rw [readAsCached]
  cases found : Text.afterHead? "downloaded, " hint with
  | none => exact Iff.rfl
  | some size =>
    have cached : "cached, " ++ size ≠ downloadingHint :=
      ne_downloadingHint_of_mem (mem_toList_append_left (by decide) size)
        blank_not_mem_downloadingHint
    have other : Text.afterHead? "downloaded, " downloadingHint = none := by decide
    -- A hint with the head is read as one with a blank in it, and is itself no hint of a picture
    -- on its way.
    refine ⟨fun h => absurd h cached, ?_⟩
    rintro rfl
    rw [other] at found
    cases found

/-- Hints that read like others show no picture as on its way that the others do not. -/
theorem downloadingHint_not_mem_of_read {hints others : List String}
    (same : hints.map readAsCached = others.map readAsCached) (h : downloadingHint ∉ others) :
    downloadingHint ∉ hints := by
  intro member
  have read : readAsCached downloadingHint ∈ hints.map readAsCached := List.mem_map_of_mem member
  rw [same, (readAsCached_eq_downloadingHint_iff _).mpr rfl] at read
  obtain ⟨other, found, reads⟩ := List.mem_map.mp read
  exact h ((readAsCached_eq_downloadingHint_iff other).mp reads ▸ found)

/-- Every diagnostic is more than one word. -/
theorem Diagnostic.blank_mem_message (d : Diagnostic) : ' ' ∈ d.message.toList := by
  cases d with
  | missingArgument name => exact mem_toList_append_left (by decide) _
  | notANumber name token => exact mem_toList_append_right _ (by decide)
  | notInOptions name token options =>
    exact mem_toList_append_left (mem_toList_append_right _ (by decide)) _
  | notABoolean name token => exact mem_toList_append_right _ (by decide)
  | surplusArguments count => exact mem_toList_append_right _ (by decide)
  | unknownCommand name =>
    exact mem_toList_append_left (mem_toList_append_left (by decide) _) _

/-- The joined diagnostics of a check that found some are more than one word. -/
theorem ArgCheck.blank_mem_hint {c : ArgCheck} (h : c.isOk = false) : ' ' ∈ c.hint.toList := by
  obtain ⟨diagnostics, values⟩ := c
  cases diagnostics with
  | nil => cases h
  | cons d rest =>
    have first := d.blank_mem_message
    rw [hint, String.toList_intercalate, List.map_cons, List.map_cons]
    -- The first diagnostic stands at the beginning of the joined ones, whatever comes after it.
    cases rest with
    | nil =>
      rw [List.map_nil, List.map_nil, List.intercalate_singleton]
      exact first
    | cons next rest =>
      rw [List.map_cons, List.map_cons, List.intercalate_cons_cons]
      exact List.mem_append_left _ (List.mem_append_left _ first)

/-- The reason that a deed fails for, if it does, is more than one word. -/
def Deed.FailsInWords (d : Deed) : Prop := ∀ hint, d = .failure hint → ' ' ∈ hint.toList

/-- An action fails only for want of an argument, and says so in words. -/
theorem Action.failsInWords_deed (a : Action) (args : Arguments) : (a.deed args).FailsInWords := by
  refine deed_of (fun name => ?_) ?_ ?_ ?_ ?_ ?_ a args
  · rintro hint ⟨⟩
    exact (Diagnostic.missingArgument name).blank_mem_message
  all_goals
    intros
    rintro hint ⟨⟩

/-- A command fails in its check or in its action, in words either way. -/
theorem Command.failsInWords_deed (c : Command) (tokens : List String) :
    (c.deed tokens).FailsInWords := by
  cases hok : (c.check tokens).isOk with
  | true =>
    rw [deed, if_pos hok]
    exact c.action.failsInWords_deed _
  | false =>
    rw [deed, if_neg (by simp [hok])]
    rintro hint ⟨⟩
    exact ArgCheck.blank_mem_hint hok

/-- A line fails in words, and so it does where nothing goes by its name. -/
theorem Registry.failsInWords_deed (r : Registry) (line : Line) : (r.deed line).FailsInWords := by
  cases line with
  | silent => exact nofun
  | call name tokens =>
    simp only [deed]
    cases r.lookup? name with
    | some command => exact command.failsInWords_deed tokens
    | none =>
      rintro hint ⟨⟩
      exact (Diagnostic.unknownCommand name).blank_mem_message

/-- Why a line fails never reads like a picture on its way. -/
theorem Registry.hint_ne_downloadingHint_of_fails (r : Registry) {line : Line}
    (fails : (r.deed line).fails = true) (cursor : Cursor) (look : String → Option EntryState) :
    (r.deed line).hint cursor look ≠ downloadingHint := by
  cases hd : r.deed line with
  | failure reason =>
    exact ne_downloadingHint_of_mem (r.failsInWords_deed line reason hd)
      blank_not_mem_downloadingHint
  | _ => rw [hd] at fails; cases fails

/-- The hint of a picture with an entry is more than one word. -/
theorem EntryState.blank_mem_status (state : EntryState) : ' ' ∈ state.status.toList := by
  match state with
  | .downloaded picture true => exact mem_toList_append_left (by decide) _
  | .downloaded picture false => exact mem_toList_append_left (by decide) _
  | .failed reason => exact (by decide : ' ' ∈ failedHint.toList)

/-- The hint of a position has a multiplication sign between its two numbers. -/
theorem Cursor.times_mem_hint (c : Cursor) : '×' ∈ c.hint.toList :=
  mem_toList_append_left (mem_toList_append_right _ (by decide)) _

/-- A line that does not fail and whose picture, if it places one, is known has another
hint than that of a picture on its way. -/
theorem Deed.hint_ne_downloadingHint {d : Deed} (succeeds : d.fails = false) (cursor : Cursor)
    {look : String → Option EntryState} (known : ∀ url ∈ d.url?, (look url).isSome = true) :
    d.hint cursor look ≠ downloadingHint := by
  have path (target : Cursor) : target.hint ≠ downloadingHint :=
    ne_downloadingHint_of_mem target.times_mem_hint times_not_mem_downloadingHint
  -- A path line shows a position, and a line with a picture shows what is known of it.
  cases d with
  | silent => exact (by decide : "" ≠ downloadingHint)
  | horizontal x => exact path _
  | vertical y => exact path _
  | straight x y => exact path _
  | curve x y radius flip => exact path _
  | failure reason => cases succeeds
  | picture url x y =>
    obtain ⟨state, found⟩ := Option.isSome_iff_exists.mp (known url rfl)
    rw [Deed.hint, found]
    exact ne_downloadingHint_of_mem state.blank_mem_status blank_not_mem_downloadingHint

end Linework
