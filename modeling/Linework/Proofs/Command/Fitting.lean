import Linework.Command.Builtin
import Linework.Proofs.Argument.Checked
import Linework.Proofs.Pass.Deed

/-!
# `Linework.Proofs.Command.Fitting`: commands whose parameters fit their action

An action reads some of its arguments without a fallback (`Action.needs`). A command fits if each
of them is a required parameter of the right kind, and no two parameters share a name. Nothing
makes a command fit, but one that does can fail in one way only: in its check
(`Command.fails_deed_of_fits`). The action itself finds all that it needs.

So in a registry of such commands the line at which a pass halts can be told from the words of the
script (`Registry.verdict_of_fits`). The five built-in commands fit, and
`builtin_halts_where_refused` says what follows for them.
-/

set_option autoImplicit false

namespace Linework

/-! ## What an action needs -/

/-- The arguments that an action cannot do without, with their kinds. -/
def Action.needs : Action → List (String × ParamKind)
  | horizontalLine => [("x", .number)]
  | verticalLine => [("y", .number)]
  | line => [("x", .number), ("y", .number)]
  | arc => [("x", .number), ("y", .number), ("radius", .number)]
  | reference => [("url", .text)]

/-- There is a value of the kind under the name. -/
def Arguments.Has (args : Arguments) (need : String × ParamKind) : Prop :=
  ∃ value, args.get? need.1 = some value ∧ value.HasKind need.2

section Needs

variable {args : Arguments} {name : String}

/-- An action that reads the number finds one. -/
theorem Arguments.number?_of_has (h : args.Has (name, .number)) :
    ∃ x, args.number? name = some x := by
  obtain ⟨value, found, kind⟩ := h
  cases value with
  | number x => exact ⟨x, by rw [number?, found]; rfl⟩
  | text s => exact kind.elim
  | truth b => exact kind.elim

/-- An action that reads the text finds one. -/
theorem Arguments.text?_of_has (h : args.Has (name, .text)) : ∃ s, args.text? name = some s := by
  obtain ⟨value, found, kind⟩ := h
  cases value with
  | text s => exact ⟨s, by rw [text?, found]; rfl⟩
  | number x => exact kind.elim
  | truth b => exact kind.elim

/-- A deed that reads a number which is there fails only if it fails later. -/
theorem Action.fails_withNumber (h : args.Has (name, .number)) {deed : Float → Deed}
    (next : ∀ x, (deed x).fails = false) : (withNumber args name deed).fails = false := by
  obtain ⟨x, found⟩ := Arguments.number?_of_has h
  rw [withNumber, found]
  exact next x

/-- An action that has what it needs does not fail. -/
theorem Action.fails_deed {a : Action} (has : ∀ need ∈ a.needs, args.Has need) :
    (a.deed args).fails = false := by
  -- Each action reads its arguments one after another, and all of them are there.
  cases a with
  | horizontalLine => exact fails_withNumber (has _ (by simp [needs])) fun _ => rfl
  | verticalLine => exact fails_withNumber (has _ (by simp [needs])) fun _ => rfl
  | line =>
    refine fails_withNumber (has _ (by simp [needs])) fun _ => ?_
    exact fails_withNumber (has _ (by simp [needs])) fun _ => rfl
  | arc =>
    refine fails_withNumber (has _ (by simp [needs])) fun _ => ?_
    refine fails_withNumber (has _ (by simp [needs])) fun _ => ?_
    exact fails_withNumber (has _ (by simp [needs])) fun _ => rfl
  | reference =>
    obtain ⟨url, found⟩ := Arguments.text?_of_has (has ("url", .text) (by simp [needs]))
    rw [deed, found]
    rfl

end Needs

/-! ## Commands that fit -/

/-- The command's required parameters are enough for its action. -/
structure Command.Fits (c : Command) : Prop where
  once : (c.params.map Param.name).Nodup
  enough : ∀ need ∈ c.action.needs, need ∈ c.required.map fun p => (p.name, p.kind)

instance (c : Command) : Decidable c.Fits :=
  decidable_of_iff ((c.params.map Param.name).Nodup ∧
      ∀ need ∈ c.action.needs, need ∈ c.required.map fun p => (p.name, p.kind))
    ⟨fun h => ⟨h.1, h.2⟩, fun h => ⟨h.once, h.enough⟩⟩

namespace Command

variable {c : Command}

/-- Arguments that pass the check of a command that fits have all that its action needs. -/
theorem Fits.has (fits : c.Fits) {tokens : List String} (ok : (c.check tokens).isOk = true)
    {need : String × ParamKind} (needed : need ∈ c.action.needs) :
    (c.check tokens).values.Has need := by
  obtain ⟨p, among, rfl⟩ := List.mem_map.mp (fits.enough need needed)
  exact exists_value_of_checked fits.once ok among

/-- A command that fits fails in its check or not at all. -/
theorem fails_deed_of_fits (fits : c.Fits) (tokens : List String) :
    (c.deed tokens).fails = !(c.check tokens).isOk := by
  cases ok : (c.check tokens).isOk with
  | true =>
    simp only [deed, ok, if_true]
    exact Action.fails_deed fun need needed => fits.has ok needed
  | false =>
    simp only [deed, ok]
    rfl

/-- The action of a command that fits, on arguments that pass the check, leaves its effect. -/
theorem Fits.perform_eq_ok (fits : c.Fits) {tokens : List String}
    (ok : (c.check tokens).isOk = true) (view : Viewport) (cursor : Cursor) (cache : Cache) :
    ∃ effect, c.action.perform (c.check tokens).values view cursor cache = .ok effect := by
  have done := c.action.perform_eq_enact (c.check tokens).values view cursor cache
  rw [Deed.enact, Action.fails_deed fun need needed => fits.has ok needed] at done
  -- The deed of the action does not fail, so an error would contradict it.
  cases outcome : c.action.perform (c.check tokens).values view cursor cache with
  | ok effect => exact ⟨effect, rfl⟩
  | error problem =>
    rw [outcome] at done
    cases done

/-- The error of a command that fits is the hint of its check. -/
theorem Fits.invoke_eq_error_iff (fits : c.Fits) (tokens : List String) (view : Viewport)
    (cursor : Cursor) (cache : Cache) {hint : String} :
    c.invoke tokens view cursor cache = .error hint ↔
      (c.check tokens).diagnostics ≠ [] ∧ hint = (c.check tokens).hint := by
  have found : (c.check tokens).isOk = true ↔ (c.check tokens).diagnostics = [] := List.isEmpty_iff
  -- A call is the check and then the action, and only the first of them can fail.
  rw [ne_eq, ← found, invoke_eq]
  split
  · rename_i ok
    obtain ⟨effect, done⟩ := fits.perform_eq_ok ok view cursor cache
    simp [done, ok, Except.mapError]
  · rename_i ok
    simp [ok, eq_comm]

end Command

/-! ## Where a pass halts -/

namespace Registry

/-- The line calls a command that is not there, or one whose check finds a problem. -/
def refuses (r : Registry) : Line → Bool
  | .silent => false
  | .call name tokens =>
    match r.lookup? name with
    | some c => !(c.check tokens).diagnostics.isEmpty
    | none => true

/-- Where every command fits, the lines that fail are those that are refused. -/
theorem fails_deed_eq_refuses {r : Registry} (fits : ∀ c ∈ r.commands, c.Fits) (line : Line) :
    (r.deed line).fails = r.refuses line := by
  cases line with
  | silent => rfl
  | call name tokens =>
    simp only [deed, refuses]
    cases found : r.lookup? name with
    | none => rfl
    | some c =>
      rw [lookup?_eq_find?] at found
      exact Command.fails_deed_of_fits (fits c (List.mem_of_find?_eq_some found)) tokens

/-- Going through lines, of which the first has the number after `before`, halts at the first that
fails. -/
theorem verdict_traceLines_eq (r : Registry) (view : Viewport) (before : Nat) (lines : List Line)
    (cursor : Cursor) (cache : Cache) :
    (r.traceLines view (before + 1) lines cursor cache).verdict
      = match lines.findIdx? fun line => (r.deed line).fails with
        | some i => .halted (before + i + 1)
        | none => .completed := by
  -- Each line that goes well moves the number of the next one on by one.
  induction lines generalizing before cursor cache with
  | nil => rfl
  | cons line rest ih =>
    rw [traceLines_cons, List.findIdx?_cons]
    by_cases hf : (r.deed line).fails = true
    · rw [if_pos hf, if_pos hf]
      rfl
    · rw [if_neg hf, if_neg hf]
      refine (ih (before + 1) _ _).trans ?_
      cases rest.findIdx? fun line => (r.deed line).fails with
      | none => rfl
      | some i =>
        show Verdict.halted (before + 1 + i + 1) = .halted (before + (i + 1) + 1)
        exact congrArg Verdict.halted (by omega)

/-- With commands that fit, a pass halts at the first line that is refused. -/
theorem verdict_of_fits {r : Registry} (fits : ∀ c ∈ r.commands, c.Fits) (view : Viewport)
    (script : String) (cache : Cache) (generation : Nat) :
    (runPass r view script cache generation).report.verdict
      = match (readScript script).findIdx? r.refuses with
        | some i => .halted (i + 1)
        | none => .completed := by
  have halts := r.verdict_traceLines_eq view 0 (readScript script) .origin cache
  simp only [fails_deed_eq_refuses fits, Nat.zero_add] at halts
  exact halts

end Registry

/-- The built-in commands fit. -/
theorem builtin_fits : ∀ c ∈ builtinRegistry.commands, c.Fits := by decide

/-- A built-in command fails just if its check finds a problem, and then the error is the hint of
the check; if the check finds none, the action has all it needs. So a pass over the built-in
commands halts at the first line that calls an unknown command or has tokens that do not pass the
check, whatever the view is and whatever is known about pictures. -/
theorem builtin_halts_where_refused :
    (∀ c ∈ builtinRegistry.commands, ∀ tokens view cursor cache,
      (∀ hint, c.invoke tokens view cursor cache = .error hint ↔
        (c.check tokens).diagnostics ≠ [] ∧ hint = (c.check tokens).hint) ∧
      ((c.check tokens).diagnostics = [] →
        ∃ effect, c.action.perform (c.check tokens).values view cursor cache = .ok effect)) ∧
    ∀ view script cache generation,
      (runPass builtinRegistry view script cache generation).report.verdict
        = match (readScript script).findIdx? builtinRegistry.refuses with
          | some i => .halted (i + 1)
          | none => .completed := by
  refine ⟨fun c among tokens view cursor cache => ?_, fun view script cache generation => ?_⟩
  · have fits := builtin_fits c among
    refine ⟨fun hint => fits.invoke_eq_error_iff tokens view cursor cache, fun none => ?_⟩
    exact fits.perform_eq_ok (List.isEmpty_iff.mpr none) view cursor cache
  · exact Registry.verdict_of_fits builtin_fits view script cache generation

/-- The third line is refused for its flag, which is no truth value. The last one is not come to. -/
example :
    ((readScript "h 4\n\narc 1 2 3 yes\nbogus").findIdx? builtinRegistry.refuses) = some 2 := by
  decide +kernel

end Linework
