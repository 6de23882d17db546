import Linework.Proofs.Session.Interleaved
import Linework.Proofs.Session.Play

/-!
# `Linework.Proofs.Session.Undisturbed`: whole passes are plays

Where no task moves during a pass, going through it line by line is `traceLines`, and the pass
leaves what `rerun` leaves. So every input and every turn of a session is what some play comes
to, and so is every history: what holds of all plays holds of whatever a session can do.

`Play.ComesTo` says this of a play and a session. The play is between two passes then, with no
task halfway through the end of its fetch.
-/

set_option autoImplicit false

namespace Linework.Session

open Relation (ReflTransGen)

variable {resolve : Resolver} {p : Play} {s t : Session}

/-! ## A pass that no task disturbs -/

/-- A pass that went on to its end, and all that happened on the way is in the trace. -/
structure Performance.Completes (now : Performance) (trace : Trace) (last : Performance) :
    Prop where
  left : last.left = []
  hints : last.hints = now.hints ++ trace.hints
  verdict : last.verdict = trace.verdict
  cursor : last.cursor = trace.cursor
  ops : last.ops = now.ops ++ trace.ops
  arrival : last.arrival = now.arrival
  showHints : last.showHints = now.showHints

/-- The pass goes on for some lines, over a cache that only the pass touches. -/
def Performance.GoesOn (r : Registry) (view : Viewport) :
    Performance × Cache → Performance × Cache → Prop :=
  ReflTransGen fun a b => b = a.1.next r view a.2

/-- Left alone, a pass in which no line has failed goes through the lines that are left. -/
theorem Performance.goesOn_to_end (now : Performance) (fine : now.verdict = .completed)
    (r : Registry) (view : Viewport) (cache : Cache) :
    let trace := r.traceLines view (now.told.length + 1) now.left now.cursor cache
    ∃ last, GoesOn r view (now, cache) (last, trace.cache) ∧ now.Completes trace last := by
  -- The induction is on the lines left, and the pass and its cache change with them.
  induction lines : now.left generalizing now cache with
  | nil =>
    exact ⟨now, .refl, lines, (List.append_nil _).symm, fine, rfl, (List.append_nil _).symm,
      rfl, rfl⟩
  | cons line rest ih =>
    have next := next_cons lines r view cache
    rw [Registry.traceLines_cons]
    by_cases hf : (r.deed line).fails = true
    · simp only [hf, if_true] at next ⊢
      exact ⟨_, .single next.symm, rfl, by simp [hints, Trace.failed], rfl, rfl,
        (List.append_nil _).symm, rfl, rfl⟩
    · simp only [hf, Bool.false_eq_true, if_false] at next ⊢
      -- The lines after this one go on from what it left.
      obtain ⟨last, on, completes⟩ := ih (now.pastLine (r.deed line) view cache.get? rest) fine
        (cache.requestAll (r.deed line).url?.toList) rfl
      have number : (now.pastLine (r.deed line) view cache.get? rest).told.length
          = now.told.length + 1 := by simp [pastLine]
      rw [number] at on completes
      refine ⟨last, .head next.symm on, completes.left, ?_, completes.verdict, completes.cursor, ?_,
        completes.arrival, completes.showHints⟩
      · rw [completes.hints]
        simp [hints, pastLine, Trace.after]
      · simp [completes.ops, pastLine, Trace.after]

/-- Where the session takes all the steps, its pass goes on. -/
theorem Play.follows {now : Performance} {after : Performance × Cache} (busy : p.underway = some now)
    (on : Performance.GoesOn p.scene.session.registry p.scene.session.viewport (now, p.cache) after) :
    ∃ moves, (p.run moves).underway = some after.1 ∧
      (p.run moves).scene.session = p.scene.session.withCache after.2 ∧
      (p.run moves).scene.progress = p.scene.progress := by
  induction on with
  | refl => exact ⟨[], busy, rfl, rfl⟩
  | @tail b _ _ step ih =>
    obtain ⟨moves, underway, session, progress⟩ := ih
    have line : (p.run moves).step .line = (p.run moves).line b.1 := by
      simp only [Play.step, underway]
    -- The session of the play differs in its cache only, so it reads the line with the same
    -- commands and view.
    have look : b.1.next (p.run moves).scene.session.registry (p.run moves).scene.session.viewport
        (p.run moves).cache = b.1.next p.scene.session.registry p.scene.session.viewport b.2 := by
      rw [Play.cache, session]
      rfl
    refine ⟨moves ++ [.line], ?_⟩
    rw [Play.run_append]
    show ((p.run moves).step .line).underway = _ ∧ ((p.run moves).step .line).scene.session = _ ∧
      ((p.run moves).step .line).scene.progress = _
    rw [line, Play.line, look, step, session]
    exact ⟨rfl, rfl, progress⟩

/-- A pass from beginning to end leaves what `rerun` leaves. -/
theorem concluded_eq_rerun {last : Performance} {arrival : Option String} {showHints : Bool}
    (completes : (Performance.begin s arrival showHints).Completes
      (s.registry.traceLines s.viewport 1 (readScript s.script) .origin s.cache) last) :
    (s.withCache (s.registry.traceLines s.viewport 1 (readScript s.script) .origin s.cache).cache).concluded
      last = s.rerun showHints := by
  have hints := completes.hints
  have ops := completes.ops
  have shows := completes.showHints
  simp only [Performance.begin, Performance.hints, List.map_nil, List.nil_append] at hints ops shows
  simp [concluded, withCache, rerun, runPass, Performance.hints, hints, ops, shows,
    completes.verdict, completes.cursor]

/-! ## What plays come to -/

/-- Some moves lead from the play to this session, between two passes, with all tasks calm. -/
def Play.ComesTo (p : Play) (after : Session) : Prop :=
  ∃ moves, (p.run moves).scene.session = after ∧ (p.run moves).underway = none ∧
    (p.run moves).scene.Calm

/-- Some moves may come first. -/
theorem Play.ComesTo.of_run (moves : List Move) (h : (p.run moves).ComesTo t) : p.ComesTo t := by
  obtain ⟨others, session, idle, calm⟩ := h
  rw [← p.run_append] at session idle calm
  exact ⟨moves ++ others, session, idle, calm⟩

/-- One move may come first. -/
theorem Play.ComesTo.of_step (move : Move) (h : (p.step move).ComesTo t) : p.ComesTo t := by
  obtain ⟨others, session, idle, calm⟩ := h
  exact ⟨move :: others, session, idle, calm⟩

/-- What is come to from the play that was come to is come to. That play is between two passes,
with its tasks calm and in order. -/
theorem Play.ComesTo.trans (h : p.ComesTo s) (attended : Attended p)
    (next : ∀ q, Attended q → q.underway = none → q.scene.Calm → q.scene.session = s → q.ComesTo t) :
    p.ComesTo t := by
  obtain ⟨moves, session, idle, calm⟩ := h
  exact (next _ (attended.run moves) idle calm session).of_run moves

/-- The tasks may move between two passes. -/
theorem TasksLead.comesTo (h : TasksLead p.scene t) (idle : p.underway = none) : p.ComesTo t := by
  obtain ⟨steps, session, -, calm, -⟩ := h
  have alone (q : Play) (steps : List (String × Cache.TaskStep)) :
      q.run (steps.map fun x => .task x.1 x.2)
        = { q with scene := q.scene.run (steps.map fun x => .task x.1 x.2) } := by
    induction steps generalizing q with
    | nil => rfl
    | cons x rest ih => exact ih _
  -- The steps of tasks are moves as they are acts, and no pass is concerned.
  refine ⟨steps.map fun x => .task x.1 x.2, ?_⟩
  rw [alone]
  exact ⟨session, idle, calm⟩

/-- What a pass leaves, with its arrival let go of if it is for one. -/
def afterPass (s : Session) (arrival : Option String) (showHints : Bool) : Session :=
  match arrival with
  | none => s.rerun showHints
  | some key => (s.rerun showHints).withCache ((s.rerun showHints).cache.letGo key)

/-- A pass that has begun comes to its end. -/
theorem Play.comesTo_afterPass {arrival : Option String} {showHints : Bool}
    (busy : p.underway = some (.begin p.scene.session arrival showHints)) (calm : p.scene.Calm) :
    p.ComesTo (p.scene.session.afterPass arrival showHints) := by
  obtain ⟨last, on, completes⟩ :=
    (Performance.begin p.scene.session arrival showHints).goesOn_to_end rfl
      p.scene.session.registry p.scene.session.viewport p.cache
  obtain ⟨moves, done, session, progress⟩ := p.follows busy on
  have arrived : last.arrival = arrival := completes.arrival
  have finished : (p.run moves).step .finish = (p.run moves).finish last := by
    simp only [Play.step, done]
  have concluded : (p.run moves).scene.session.concluded last = p.scene.session.rerun showHints := by
    rw [session]
    exact concluded_eq_rerun completes
  -- No task has moved since the pass began.
  have still : (p.run moves).scene.Calm := by
    intro key
    rw [progress]
    exact calm key
  refine Play.ComesTo.of_run moves (.of_step .finish ?_)
  rw [finished, Play.finish, completes.left, arrived]
  cases arrival with
  | none => exact ⟨[], concluded, rfl, still⟩
  | some key =>
    refine ⟨[], ?_, rfl, still⟩
    show ((p.run moves).scene.session.concluded last).withCache
      (((p.run moves).scene.session.concluded last).cache.letGo key) = _
    rw [concluded]
    rfl

/-! ## Inputs, turns and histories -/

/-- An input is its beginning, and then its pass line by line. -/
theorem Play.comesTo_input (idle : p.underway = none) (calm : p.scene.Calm) (i : Input) :
    p.ComesTo (i.apply p.scene.session) := by
  have first : p.step (.input i) = p.input i := by simp only [Play.step, idle]
  rw [i.apply_eq]
  refine .of_step (.input i) ?_
  rw [first]
  -- Without a pass the input is done when it has come in.
  cases pass : (i.begin p.scene.session).2 with
  | none => exact ⟨[], rfl, by simp [Play.run, Play.input, pass], calm⟩
  | some showHints =>
    have busy : (p.input i).underway
        = some (.begin (i.begin p.scene.session).1 none showHints) := by
      simp [Play.input, pass]
    exact Play.comesTo_afterPass busy calm

/-- An arrival is dealt with by its receipt, the lines of its pass, and its release at the end. -/
theorem Play.comesTo_handleArrival (idle : p.underway = none) (calm : p.scene.Calm) :
    p.ComesTo p.scene.session.handleArrival := by
  cases queue : p.scene.session.cache.queued with
  | nil =>
    rw [handleArrival_of_empty queue]
    exact ⟨[], rfl, idle, calm⟩
  | cons key rest =>
    have first : p.step .receive = p.receive := by simp only [Play.step, idle]
    have begun := Play.receive_of_queued queue
    have busy : p.receive.underway = some (.begin p.receive.scene.session (some key) true) := by
      rw [begun]
      rfl
    have still : p.receive.scene.Calm := by
      rw [begun]
      exact calm
    have comes := Play.comesTo_afterPass busy still
    rw [handleArrival_of_queued queue]
    refine .of_step .receive ?_
    rw [first]
    rw [begun] at comes ⊢
    exact comes

/-- Every short turn is come to: the steps of the cache are moves of tasks, or of those who hold
addresses. -/
theorem Attended.comesTo_quiet (h : Attended p) (idle : p.underway = none) (calm : p.scene.Calm)
    (step : Quiet resolve p.scene.session t) : p.ComesTo t := by
  -- With nothing in hand, the tasks see the cache as it is.
  have tended := h.tended
  rw [Cache.unreceived_of_none (h.received_of_none idle)] at tended
  cases step with
  | arrival => exact Play.comesTo_handleArrival idle calm
  | drift drift =>
    cases drift with
    | finish hf => exact (tasksLead_finish tended calm hf _).comesTo idle
    | relabel key => exact (tasksLead_relabel tended calm key).comesTo idle
    | hold url => exact ⟨[.hold url], rfl, idle, calm⟩
    | ungate url => exact ⟨[.ungate url], rfl, idle, calm⟩
    | keepBack key => exact ⟨[.keepBack key], rfl, idle, calm⟩

/-- Every event is come to, for a turn is a chain of short ones. -/
theorem Attended.comesTo_event (h : Attended p) (idle : p.underway = none) (calm : p.scene.Calm)
    (resolve : Resolver) (event : Event) : p.ComesTo (event.apply resolve p.scene.session) := by
  cases event with
  | input i => exact Play.comesTo_input idle calm i
  | turn turn =>
    have steps : ReflTransGen (Quiet resolve) p.scene.session (turn.apply resolve p.scene.session) :=
      turn_quiet turn p.scene.session
    show p.ComesTo (turn.apply resolve p.scene.session)
    generalize turn.apply resolve p.scene.session = after at steps
    induction steps with
    | refl => exact ⟨[], rfl, idle, calm⟩
    | tail _ step ih =>
      refine ih.trans h fun q attended idle calm session => ?_
      rw [← session] at step
      exact attended.comesTo_quiet idle calm step

/-- Whatever a session can do is what some play comes to. -/
theorem Attended.comesTo_runEach (h : Attended p) (idle : p.underway = none) (calm : p.scene.Calm)
    (history : List (Resolver × Event)) : p.ComesTo (p.scene.session.runEach history) := by
  induction history generalizing p with
  | nil => exact ⟨[], rfl, idle, calm⟩
  | cons x rest ih =>
    refine (h.comesTo_event idle calm x.1 x.2).trans h fun q attended idle calm session => ?_
    have others := ih attended idle calm
    rw [session] at others
    exact others

end Linework.Session
