import Linework.Pass.Run
import Linework.Proofs.Reference.Tables

/-!
# `Linework.Proofs.Pass.Deed`: what a line does, apart from where

A line is checked against its command's parameters before anything is done, and
neither the canvas nor the cursor nor the pictures have a say in that. A `Deed` is
what is left of the line then: the numbers of a path line, the address and place
of a picture, or the reason that the line fails. `Registry.deed` reads it off.

What a deed comes to is told field by field. `Deed.target` is where it leaves the
cursor, `Deed.hint` and `Deed.ops` read the entries of the cache besides, and
`Deed.url?` is the picture it asks for. `Deed.enact` puts the fields together, and it
is the line:

* `run_work`: the steps of a line take a sheet to where its deed takes it. A deed that
  fails leaves the sheet as it is, so this says of every action that it does nothing
  before the last step at which it can break off.
* `runLine_eq_enact`: running a line is enacting its deed.
* `traceLines_cons`: the same for going through lines, one at a time.

So whether a line fails, and where it leaves the cursor, does not depend on the view
or on the cache, and the rest depends on the cache by lookups alone.
-/

set_option autoImplicit false

namespace Linework

/-- What a line does, whatever the canvas, the cursor and the pictures are. -/
inductive Deed where
  /-- The line says nothing. -/
  | silent
  | horizontal (x : Float)
  | vertical (y : Float)
  | straight (x y : Float)
  | curve (x y radius : Float) (flip : Bool)
  /-- The picture at the address `url` is placed. -/
  | picture (url : String) (x y : Float)
  /-- The line fails, and `hint` says why. -/
  | failure (hint : String)

namespace Action

/-- A straight stretch of the path to a cursor. -/
def straightTo (view : Viewport) (target : Cursor) (cache : Cache) : Effect where
  hint := target.hint
  cursor := target
  ops := [.lineTo (view.screenX target.x) (view.screenY target.y)]
  cache := cache

/-- A curved stretch of the path to a cursor. -/
def curveTo (view : Viewport) (control target : Cursor) (cache : Cache) : Effect :=
  let cx := view.screenX control.x
  let cy := view.screenY control.y
  { hint := target.hint
    cursor := target
    ops := [.fillText controlLabel cx cy,
      .quadraticCurveTo cx cy (view.screenX target.x) (view.screenY target.y)]
    cache := cache }

end Action

namespace Deed

/-- Whether the line fails. -/
def fails : Deed → Bool
  | failure _ => true
  | _ => false

/-- The address of the picture that the line places. -/
def url? : Deed → Option String
  | picture url _ _ => some url
  | _ => none

/-- Where the line leaves the cursor. -/
def target (d : Deed) (cursor : Cursor) : Cursor :=
  match d with
  | horizontal x => ⟨cursor.x + x, cursor.y⟩
  | vertical y => ⟨cursor.x, cursor.y + y⟩
  | straight x y => ⟨cursor.x + x, cursor.y + y⟩
  | curve x y _ _ => ⟨cursor.x + x, cursor.y + y⟩
  | _ => cursor

/-- The hint of the line, with what is known about pictures. -/
def hint (d : Deed) (cursor : Cursor) (look : String → Option EntryState) : String :=
  match d with
  | silent => ""
  | picture url _ _ =>
    match look url with
    | some state => state.status
    | none => downloadingHint
  | failure reason => reason
  | path => (path.target cursor).hint

/-- What the line draws, with what is known about pictures. -/
def ops (d : Deed) (view : Viewport) (cursor : Cursor) (look : String → Option EntryState) :
    List DrawOp :=
  match d with
  | silent => []
  | picture url x y =>
    match look url with
    | some state => Action.placePicture view x y state
    | none => []
  | failure _ => []
  | curve x y radius flip =>
    let control := Action.controlPoint cursor x y radius flip
    (Action.curveTo view control ((curve x y radius flip).target cursor) .empty).ops
  | path => (Action.straightTo view (path.target cursor) .empty).ops

/-- Carries out a deed. -/
def enact (d : Deed) (view : Viewport) (cursor : Cursor) (cache : Cache) :
    Except String Effect :=
  if d.fails then .error (d.hint cursor cache.get?)
  else .ok
    { hint := d.hint cursor cache.get?
      cursor := d.target cursor
      ops := d.ops view cursor cache.get?
      cache := cache.requestAll d.url?.toList }

end Deed

/-! ## Work and its outcome -/

section Outcome

variable {ε δ : Type}

/-- Where an outcome takes a sheet. -/
def Sheet.after (sheet : Sheet) : Except ε Effect → EStateM.Result ε Sheet String
  | .ok effect => .ok effect.hint ⟨effect.cursor, sheet.ops ++ effect.ops, effect.cache⟩
  | .error problem => .error problem sheet

/-- Work that takes a fresh sheet where an outcome takes it has this outcome. -/
theorem Work.outcome_of_run {work : Work ε String} {cursor : Cursor} {cache : Cache}
    {outcome : Except ε Effect}
    (run : work.run ⟨cursor, [], cache⟩ = Sheet.after ⟨cursor, [], cache⟩ outcome) :
    work.outcome cursor cache = outcome := by
  rw [Work.outcome, run]
  cases outcome <;> rfl

/-- Putting a fault into words changes nothing about the outcome but the fault. -/
theorem Work.outcome_adaptExcept (f : ε → δ) (work : Work ε String) (cursor : Cursor)
    (cache : Cache) :
    Work.outcome (work.adaptExcept f) cursor cache = (work.outcome cursor cache).mapError f := by
  simp only [Work.outcome, EStateM.run, EStateM.adaptExcept]
  cases work ⟨cursor, [], cache⟩ <;> rfl

end Outcome

/-! ## The deed of a line -/

namespace Action

/-- The deed that reads a number, which fails if there is none. -/
def withNumber (args : Arguments) (name : String) (deed : Float → Deed) : Deed :=
  match args.number? name with
  | some value => deed value
  | none => .failure (Diagnostic.missingArgument name).message

/-- The deed of an action with its arguments. -/
def deed (a : Action) (args : Arguments) : Deed :=
  match a with
  | horizontalLine => withNumber args "x" .horizontal
  | verticalLine => withNumber args "y" .vertical
  | line => withNumber args "x" fun x => withNumber args "y" fun y => .straight x y
  | arc =>
    withNumber args "x" fun x => withNumber args "y" fun y =>
      withNumber args "radius" fun radius =>
        .curve x y radius ((args.truth? "flip").getD false)
  | reference =>
    match args.text? "url" with
    | some url => .picture url ((args.number? "x").getD 0.0) ((args.number? "y").getD 0.0)
    | none => .failure (Diagnostic.missingArgument "url").message

/-- What holds of the deed that lacks the number, and of every deed with a number, holds of the
deed that reads it. -/
theorem withNumber_of {P : Deed → Prop} {args : Arguments} {name : String} {deed : Float → Deed}
    (missing : P (.failure (Diagnostic.missingArgument name).message))
    (found : ∀ value, P (deed value)) : P (withNumber args name deed) := by
  unfold withNumber
  cases args.number? name with
  | some value => exact found value
  | none => exact missing

/-- What the deeds of actions can be: an action draws a path or a picture, or it lacks an
argument. -/
theorem deed_of {P : Deed → Prop}
    (missing : ∀ name, P (.failure (Diagnostic.missingArgument name).message))
    (horizontal : ∀ x, P (.horizontal x)) (vertical : ∀ y, P (.vertical y))
    (straight : ∀ x y, P (.straight x y)) (curve : ∀ x y radius flip, P (.curve x y radius flip))
    (picture : ∀ url x y, P (.picture url x y)) (a : Action) (args : Arguments) :
    P (a.deed args) := by
  cases a with
  | horizontalLine => exact withNumber_of (missing _) horizontal
  | verticalLine => exact withNumber_of (missing _) vertical
  | line => exact withNumber_of (missing _) fun x => withNumber_of (missing _) (straight x)
  | arc =>
    refine withNumber_of (missing _) fun x => withNumber_of (missing _) fun y => ?_
    exact withNumber_of (missing _) fun radius => curve x y radius _
  | reference =>
    unfold deed
    cases args.text? "url" with
    | some url => exact picture url _ _
    | none => exact missing _

/-- Work in words of the user takes every sheet to where a deed takes it. -/
def Does (work : Work Diagnostic String) (view : Viewport) (deed : Deed) : Prop :=
  ∀ sheet : Sheet, EStateM.run (work.adaptExcept Diagnostic.message) sheet
    = sheet.after (deed.enact view sheet.cursor sheet.cache)

/-- Work that begins with reading a number goes on with the number, or breaks off for want
of it before anything is done. -/
theorem Does.withNumber {args : Arguments} {name : String} {view : Viewport}
    {next : Float → Work Diagnostic String} {deed : Float → Deed}
    (h : ∀ value, Does (next value) view (deed value)) :
    Does (requireNumber args name >>= next) view (withNumber args name deed) := by
  intro sheet
  unfold requireNumber Action.withNumber
  cases args.number? name with
  | some value => exact h value sheet
  | none => rfl

/-- The steps of an action take every sheet to where its deed takes it. For the path actions the
steps are read off; a picture is looked up first, and what is found decides between drawing and
asking. -/
theorem work_does (a : Action) (args : Arguments) (view : Viewport) :
    Does (a.work args view) view (a.deed args) := by
  cases a with
  | horizontalLine => exact .withNumber fun _ _ => rfl
  | verticalLine => exact .withNumber fun _ _ => rfl
  | line => exact .withNumber fun _ => .withNumber fun _ _ => rfl
  | arc =>
    refine .withNumber fun x => .withNumber fun y => .withNumber fun radius sheet => ?_
    -- The label and the curve are drawn one after the other.
    have drawn (label curve : DrawOp) :
        sheet.ops ++ [label, curve] = sheet.ops ++ [label] ++ [curve] := by simp
    rw [Deed.enact, if_neg (by simp [Deed.fails]), Sheet.after]
    simp only [Deed.ops, curveTo, drawn]
    rfl
  | reference =>
    intro sheet
    unfold work deed
    cases args.text? "url" with
    | none => rfl
    | some url =>
      rw [Deed.enact, if_neg (by simp [Deed.fails]), Sheet.after]
      have looked : (EStateM.get : Work Diagnostic Sheet) sheet = .ok sheet sheet := rfl
      simp only [EStateM.run, EStateM.adaptExcept, bind, EStateM.bind, get, getThe, MonadStateOf.get,
        looked, Deed.hint, Deed.ops]
      cases found : sheet.cache.get? url with
      | none =>
        simp only [List.append_nil]
        rfl
      | some state =>
        -- A picture with an entry is not asked for again.
        have same : sheet.cache.requestAll [url] = sheet.cache :=
          Cache.request_of_knows (Cache.knows_of_get? found) url
        simp only [Deed.url?, Option.toList_some, same]
        rfl

/-- Performing an action is enacting its deed, with faults put into words. -/
theorem perform_eq_enact (a : Action) (args : Arguments) (view : Viewport) (cursor : Cursor)
    (cache : Cache) :
    (a.perform args view cursor cache).mapError Diagnostic.message
      = (a.deed args).enact view cursor cache := by
  rw [perform, ← Work.outcome_adaptExcept]
  exact Work.outcome_of_run (a.work_does args view _)

end Action

namespace Command

/-- The deed of a command with its tokens. -/
def deed (c : Command) (tokens : List String) : Deed :=
  let checked := c.check tokens
  if checked.isOk then c.action.deed checked.values else .failure checked.hint

/-- A command works on a sheet as its deed says, whether its tokens pass the check or not. -/
theorem run_work (c : Command) (tokens : List String) (view : Viewport) (sheet : Sheet) :
    (c.work tokens view).run sheet
      = sheet.after ((c.deed tokens).enact view sheet.cursor sheet.cache) := by
  cases hok : (c.check tokens).isOk with
  | true =>
    simp only [work, deed, hok, if_true]
    exact c.action.work_does _ view sheet
  | false =>
    -- Tokens that do not pass stop the work before the action, and the deed is a failure with the
    -- same words.
    simp only [work, deed, hok, Bool.false_eq_true, if_false]
    rfl

/-- Invoking is performing the action, if the tokens pass the check. -/
theorem invoke_eq (c : Command) (tokens : List String) (view : Viewport) (cursor : Cursor)
    (cache : Cache) :
    c.invoke tokens view cursor cache
      = if (c.check tokens).isOk then
          (c.action.perform (c.check tokens).values view cursor cache).mapError Diagnostic.message
        else .error (c.check tokens).hint := by
  rw [invoke, work]
  split
  · exact Work.outcome_adaptExcept Diagnostic.message _ cursor cache
  · rfl

end Command

namespace Trace

/-- A line failed without a trace but for its hint. -/
def failed (line : Nat) (hint : String) (cursor : Cursor) (cache : Cache) : Trace :=
  ⟨[hint], .halted line, cursor, [], cache⟩

/-- A line that failed leaves one hint. -/
theorem hints_failed (line : Nat) (hint : String) (cursor : Cursor) (cache : Cache) :
    (failed line hint cursor cache).hints = [hint] := rfl

/-- The hint of a line comes before those of the lines after it. -/
theorem hints_after (effect : Effect) (rest : Trace) :
    (after effect rest).hints = effect.hint :: rest.hints := rfl

/-- What a line draws comes before what the lines after it draw. -/
theorem ops_after (effect : Effect) (rest : Trace) :
    (after effect rest).ops = effect.ops ++ rest.ops := rfl

/-- The cache at the end is the one that the last line leaves. -/
theorem cache_after (effect : Effect) (rest : Trace) : (after effect rest).cache = rest.cache := rfl

end Trace

namespace Registry

/-- The deed of a line. -/
def deed (r : Registry) : Line → Deed
  | .silent => .silent
  | .call name tokens =>
    match r.lookup? name with
    | some command => command.deed tokens
    | none => .failure (Diagnostic.unknownCommand name).message

/-- The steps of a line take a sheet to where its deed takes it. -/
theorem run_work (r : Registry) (view : Viewport) (line : Line) (sheet : Sheet) :
    (r.work view line).run sheet
      = sheet.after ((r.deed line).enact view sheet.cursor sheet.cache) := by
  cases line with
  | silent =>
    show EStateM.Result.ok "" sheet = .ok "" ⟨sheet.cursor, sheet.ops ++ [], sheet.cache⟩
    rw [List.append_nil]
  | call name tokens =>
    simp only [work, deed]
    cases r.lookup? name with
    | some command => exact command.run_work tokens view sheet
    | none => rfl

/-- Running the call of a command is invoking the command. -/
theorem runLine_call {r : Registry} {name : String} {command : Command}
    (found : r.lookup? name = some command) (view : Viewport) (cursor : Cursor) (cache : Cache)
    (tokens : List String) :
    r.runLine view cursor cache (.call name tokens) = command.invoke tokens view cursor cache := by
  simp only [runLine, work, found]
  rfl

/-- Running a line is enacting its deed. -/
theorem runLine_eq_enact (r : Registry) (view : Viewport) (cursor : Cursor) (cache : Cache)
    (line : Line) : r.runLine view cursor cache line = (r.deed line).enact view cursor cache :=
  Work.outcome_of_run (r.run_work view line _)

/-! ## Going through lines -/

/-- Going through lines is enacting the first deed and, unless it fails, going on
from where it leaves things. -/
theorem traceLines_cons (r : Registry) (view : Viewport) (number : Nat) (line : Line)
    (rest : List Line) (cursor : Cursor) (cache : Cache) :
    r.traceLines view number (line :: rest) cursor cache
      = if (r.deed line).fails then
          .failed number ((r.deed line).hint cursor cache.get?) cursor cache
        else
          .after ⟨(r.deed line).hint cursor cache.get?, (r.deed line).target cursor,
              (r.deed line).ops view cursor cache.get?,
              cache.requestAll (r.deed line).url?.toList⟩
            (r.traceLines view (number + 1) rest ((r.deed line).target cursor)
              (cache.requestAll (r.deed line).url?.toList)) := by
  -- A line is its work on the sheet, which is its deed.
  rw [traceLines, run_work, Deed.enact]
  cases (r.deed line).fails <;> rfl

/-- The deeds that going through lines comes to: all before the first that fails. -/
def executed (r : Registry) (lines : List Line) : List Deed :=
  (lines.map r.deed).takeWhile fun d => !d.fails

/-- The addresses of the pictures that going through lines places, in order. -/
def wanted (r : Registry) (lines : List Line) : List String :=
  (r.executed lines).filterMap Deed.url?

end Registry

/-! ## The lines that place a picture -/

/-- Among the actions only `reference` places a picture, and it does so under the address in its
arguments. -/
theorem Action.url?_deed_iff (a : Action) (args : Arguments) (key : String) :
    (a.deed args).url? = some key ↔ a = .reference ∧ args.text? "url" = some key := by
  -- The other actions place no picture, whether they lack a number or not.
  have path {b : Action} (other : b ≠ .reference) (none : (b.deed args).url? = none) :
      (b.deed args).url? = some key ↔ b = .reference ∧ args.text? "url" = some key := by
    simp [none, other]
  have number {name : String} {next : Float → Deed} (none : ∀ value, (next value).url? = none) :
      (withNumber args name next).url? = Option.none :=
    withNumber_of (P := fun d => d.url? = Option.none) rfl none
  cases a with
  | horizontalLine => exact path (by simp) (number fun _ => rfl)
  | verticalLine => exact path (by simp) (number fun _ => rfl)
  | line => exact path (by simp) (number fun _ => number fun _ => rfl)
  | arc => exact path (by simp) (number fun _ => number fun _ => number fun _ => rfl)
  | reference =>
    unfold deed
    cases args.text? "url" <;> simp [Deed.url?]

/-- The lines that place a picture are the calls of a command that places pictures, with
arguments that pass its check and name the picture. -/
theorem Registry.url?_deed_iff (r : Registry) (line : Line) (key : String) :
    (r.deed line).url? = some key ↔
      ∃ name tokens command, line = .call name tokens ∧ r.lookup? name = some command ∧
        (command.check tokens).isOk = true ∧ command.action = .reference ∧
        (command.check tokens).values.text? "url" = some key := by
  cases line with
  | silent => simp [deed, Deed.url?]
  | call name tokens =>
    simp only [deed]
    cases found : r.lookup? name with
    | none => simp [Deed.url?, found]
    | some command =>
      cases ok : (command.check tokens).isOk with
      | false => simp [Command.deed, Deed.url?, ok, found]
      | true => simp [Command.deed, ok, found, Action.url?_deed_iff]

end Linework
