import Linework.Proofs.Session.Steady

/-!
# `Linework.Proofs.Session.Current`: what is shown is of the script as it is now

Whatever changes the script or the view of a session ends in a pass over the new ones, and
so does every arrival that is dealt with. An `Input` is taken apart for this into what it
changes and the pass it runs then, if it runs one (`Input.begin`).

A canvas only ever grows, and a report is replaced by the next one. So what keeps both
current is that nothing touches the script or the view after the latest pass. `Current`
says this of a session. It counts the passes on the canvas too, for each pass wipes it once.

* `current_rerun`: a pass makes a session current, whatever was done to it before.
* `Current.input` / `Current.quiet`: every input and every short turn keeps it so.
* `generation_runEach`: how many passes a history runs, told from its events.
* `never_stale`: all of it together, for every history of a session.

Where the script halts and where it leaves the cursor has nothing to do with pictures or with
the view (`course_runPass`), so this part of the report is that of a pass over any cache.
-/

set_option autoImplicit false

namespace Linework

open Relation (ReflTransGen)

/-! ## Passes on a canvas -/

/-- How often a canvas was wiped. -/
def Recording.clears (r : Recording) : Nat := r.ops.countP DrawOp.isClear

/-- A pass wipes the canvas once, at its beginning. None of its lines does. -/
theorem clears_append_runPass (recording : Recording) (r : Registry) (view : Viewport)
    (script : String) (cache : Cache) (n : Nat) :
    (recording.append (runPass r view script cache n).ops).clears = recording.clears + 1 := by
  have lines : (r.traceLines view 1 (readScript script) .origin cache).ops.countP DrawOp.isClear = 0 := by
    rw [List.countP_eq_zero]
    intro op member wiped
    have kept := r.isClear_traceLines view 1 (readScript script) .origin cache op member
    simp [kept] at wiped
  simp [Recording.clears, Recording.append, runPass, List.countP_cons, lines, DrawOp.isClear]

namespace Session

/-! ## What an input changes before its pass -/

/-- The script replaced and saved, and not run yet. -/
def edited (s : Session) (text : String) : Session :=
  { s with script := text, files := s.filesAfterSaving text }

/-- The view changed, and nothing drawn yet. -/
def viewed (s : Session) (view : Viewport) : Session := { s with viewport := view }

/-- The session that an input comes to before it runs a pass, and whether the pass shows
its hints. Without a pass there is nothing after it. -/
def Input.begin (i : Input) (s : Session) : Session × Option Bool :=
  match i with
  | setScript text => (s.edited text, some true)
  | restore =>
    match s.stored with
    | .ok (some text) => (s.edited text, some true)
    | _ => (s, none)
  | loadReference name path => (s.loadReference name path, none)
  | importReference name path =>
    ((s.loadReference name path).edited (prependReference s.script name), some true)
  | panBy dx dy => (s.viewed (s.viewport.panBy dx dy), some false)
  | zoomBy delta pinch => (s.viewed (s.viewport.zoomBy delta pinch), some false)
  | resetZoom => (s.viewed s.viewport.resetZoom, some false)
  | recenter => (s.viewed (s.viewport.recenter (.centered s.canvas.1 s.canvas.2)), some false)
  | setViewport view => (s.viewed view, some false)
  | setFiles files => ({ s with files := files }, none)

/-- A pass, or none. -/
def rerunIf (s : Session) : Option Bool → Session
  | some showHints => s.rerun showHints
  | none => s

/-- An input is its beginning and then its pass, if it runs one. -/
theorem Input.apply_eq (i : Input) (s : Session) :
    i.apply s = (i.begin s).1.rerunIf (i.begin s).2 := by
  cases i with
  | restore =>
    show s.restore.2 = _
    rw [Session.restore, begin]
    rcases s.stored with _ | _ | text <;> rfl
  | _ => rfl

/-- What the passes have left is not touched before the next one. -/
theorem Input.begin_keeps (i : Input) (s : Session) :
    (i.begin s).1.generation = s.generation ∧ (i.begin s).1.recording = s.recording ∧
      (i.begin s).1.lastReport = s.lastReport ∧ (i.begin s).1.registry = s.registry := by
  cases i with
  | restore =>
    rw [begin]
    split <;> exact ⟨rfl, rfl, rfl, rfl⟩
  | _ => exact ⟨rfl, rfl, rfl, rfl⟩

/-- An input without a pass leaves the script and the view alone. -/
theorem Input.begin_of_no_pass {i : Input} {s : Session} (none : (i.begin s).2 = none) :
    (i.begin s).1.script = s.script ∧ (i.begin s).1.viewport = s.viewport := by
  cases i with
  | restore =>
    rw [begin] at none ⊢
    split at none
    · cases none
    · exact ⟨rfl, rfl⟩
  | loadReference name path => exact ⟨rfl, rfl⟩
  | setFiles files => exact ⟨rfl, rfl⟩
  | _ => cases none

/-! ## The invariant -/

/-- What the latest pass left is that of a pass over the script and the view as they are now,
and the canvas was wiped once for each pass. -/
structure Current (s : Session) : Prop where
  clears : s.recording.clears = s.generation
  latest : s.generation ≠ 0 → ∃ cache,
    s.lastReport = some (runPass s.registry s.viewport s.script cache s.generation).report ∧
      s.recording.currentFrame = (runPass s.registry s.viewport s.script cache s.generation).ops

/-- Before the first pass there is nothing to be current. -/
theorem current_start (registry : Registry) (canvas : UInt32 × UInt32) (store : Option String)
    (files : FileSystem) : Current (start registry canvas store files) :=
  ⟨rfl, fun ran => absurd rfl ran⟩

/-- Before a pass the script and the view may be any. -/
theorem current_rerun {s : Session} (clears : s.recording.clears = s.generation)
    (showHints : Bool) : Current (s.rerun showHints) where
  clears := by
    show (s.recording.append _).clears = s.generation + 1
    rw [clears_append_runPass, clears]
  -- Whatever was on the canvas before, the pass begins by wiping it.
  latest _ := ⟨s.cache, rfl, currentFrame_append_runPass _ _ _ _ _ _⟩

/-- Every input keeps a session current. -/
theorem Current.input {s : Session} (h : Current s) (i : Input) : Current (i.apply s) := by
  obtain ⟨generation, recording, report, registry⟩ := i.begin_keeps s
  have clears : (i.begin s).1.recording.clears = (i.begin s).1.generation := by
    rw [recording, generation, h.clears]
  rw [i.apply_eq]
  cases pass : (i.begin s).2 with
  | some showHints => exact current_rerun clears showHints
  | none =>
    -- No pass, but then nothing changed that a pass would have to show.
    obtain ⟨script, view⟩ := Input.begin_of_no_pass pass
    refine ⟨clears, fun ran => ?_⟩
    simp only [rerunIf, generation, recording, report, registry, script, view] at ran ⊢
    exact h.latest ran

/-- A short turn keeps a session current: it runs a pass over the script as it is, or it leaves
script, view and canvas alone. -/
theorem Current.quiet {resolve : Resolver} {s t : Session} (h : Current s)
    (step : Quiet resolve s t) : Current t := by
  cases step with
  | drift drift => exact ⟨h.clears, h.latest⟩
  | arrival =>
    cases queue : s.cache.queued with
    | nil => rwa [handleArrival_of_empty queue]
    | cons key rest =>
      -- The release after the pass touches the cache only.
      rw [handleArrival_of_queued queue]
      have passed := current_rerun (s := { s with cache := s.cache.receive.2 }) h.clears true
      exact ⟨passed.clears, passed.latest⟩

/-- So do short turns one after another. -/
theorem Current.chain {resolve : Resolver} {s t : Session} (h : Current s)
    (steps : ReflTransGen (Quiet resolve) s t) : Current t := by
  induction steps with
  | refl => exact h
  | tail _ step ih => exact ih.quiet step

/-- Every event keeps a session current. -/
theorem Current.event {s : Session} (h : Current s) (resolve : Resolver) (event : Event) :
    Current (event.apply resolve s) := by
  cases event with
  | input input => exact h.input input
  | turn turn =>
    exact h.chain (turn_quiet turn s)

/-! ## Counting passes -/

/-- How many passes an input runs: one for an edit or a change of the view. What only loads a
picture runs none, nor does a restore that finds nothing or fails. -/
def Input.passes (i : Input) (s : Session) : Nat :=
  match i with
  | setScript _ | importReference _ _ => 1
  | panBy _ _ | zoomBy _ _ | resetZoom | recenter | setViewport _ => 1
  | loadReference _ _ | setFiles _ => 0
  | restore =>
    match s.stored with
    | .ok (some _) => 1
    | .ok none | .error _ => 0

/-- How many arrivals a turn handles. Settling counts them itself. -/
def Turn.handled (resolve : Resolver) (turn : Turn) (s : Session) : Nat :=
  match turn with
  | finish _ | relabel _ | hold _ | keepBack _ | release _ | pump => 0
  | handleArrival => min 1 s.cache.queued.length
  | processArrivals => s.cache.queued.length
  | settle => (s.settle resolve).1
  | settleWithin rounds => (s.settleRounds resolve rounds).1

/-- How many passes an event runs: those of the input, or one for each arrival that the turn
handles. -/
def Event.passes (resolve : Resolver) (event : Event) (s : Session) : Nat :=
  match event with
  | input i => i.passes s
  | turn t => t.handled resolve s

/-- An input raises the generation by the passes it runs. -/
theorem Input.generation_apply (i : Input) (s : Session) :
    (i.apply s).generation = s.generation + i.passes s := by
  cases i with
  | restore =>
    show s.restore.2.generation = _
    rw [Session.restore, passes]
    rcases s.stored with _ | _ | text <;> rfl
  | _ => rfl

/-- Handling so many arrivals is so many passes, provided that so many are queued. -/
theorem generation_handleArrivals {count : Nat} {s : Session}
    (enough : count ≤ s.cache.queued.length) :
    (handleArrivals count s).generation = s.generation + count := by
  -- Each arrival takes one from the queue and adds one to the generation.
  induction count generalizing s with
  | zero => rfl
  | succ count ih =>
    cases queue : s.cache.queued with
    | nil => simp [queue] at enough
    | cons key rest =>
      -- A pass queues nothing and takes nothing from the queue.
      have left : s.handleArrival.cache.queued = rest := by
        rw [handleArrival_of_queued queue]
        show ((rerun { s with cache := s.cache.receive.2 } true).cache.letGo key).queued = rest
        rw [Cache.queued_letGo, cache_rerun, Cache.queued_requestAll, Cache.receive, queue]
      have once : s.handleArrival.generation = s.generation + 1 := by
        rw [handleArrival_of_queued queue]
        rfl
      rw [handleArrivals, ih (by rw [left]; simpa [queue] using enough), once]
      omega

/-- Processing runs one pass for each arrival queued. -/
theorem generation_processArrivals (s : Session) :
    s.processArrivals.generation = s.generation + s.cache.queued.length :=
  generation_handleArrivals (Nat.le_refl _)

/-- Settling runs as many passes as it counts arrivals, whatever its bound. The induction is on
the rounds, each of which drains the queue and then handles the one arrival that it waited for. -/
theorem generation_settleRounds (resolve : Resolver) (rounds : Nat) (s : Session) :
    (s.settleRounds resolve rounds).2.generation
      = s.generation + (s.settleRounds resolve rounds).1 := by
  induction rounds generalizing s with
  | zero => rfl
  | succ rounds ih =>
    have drained := s.generation_processArrivals
    rw [settleRounds]
    split
    -- A round that finds nothing in flight, or waits in vain, only drains the queue.
    · exact drained
    · dsimp only
      split
      · exact drained
      · rename_i came
        -- The one arrival that was waited for.
        have one : 1 ≤ (s.processArrivals.pump resolve).cache.queued.length := by
          rw [List.isEmpty_iff] at came
          exact List.length_pos_of_ne_nil came
        have waited := generation_handleArrivals one
        have later := ih (s.processArrivals.pump resolve).handleArrival
        simp only [handleArrivals] at waited
        simp only [later, waited]
        show s.processArrivals.generation + 1 + _ = _
        omega

/-- A turn raises the generation by the arrivals that it handles. -/
theorem Turn.generation_apply (resolve : Resolver) (turn : Turn) (s : Session) :
    (turn.apply resolve s).generation = s.generation + turn.handled resolve s := by
  cases turn with
  | finish key =>
    show (s.finish resolve key).generation = s.generation
    rw [Session.finish]
    split <;> rfl
  | handleArrival =>
    show s.handleArrival.generation = s.generation + min 1 s.cache.queued.length
    cases queue : s.cache.queued with
    | nil => rw [handleArrival_of_empty queue]; rfl
    | cons key rest =>
      have some : 1 ≤ s.cache.queued.length := by simp [queue]
      rw [List.length_cons, Nat.min_eq_left (by omega)]
      exact generation_handleArrivals some
  | processArrivals => exact s.generation_processArrivals
  | settle => exact generation_settleRounds resolve _ s
  | settleWithin rounds => exact generation_settleRounds resolve rounds s
  | _ => rfl

/-- An event raises the generation by the passes it runs. -/
theorem Event.generation_apply (resolve : Resolver) (event : Event) (s : Session) :
    (event.apply resolve s).generation = s.generation + event.passes resolve s := by
  cases event with
  | input i => exact i.generation_apply s
  | turn t => exact t.generation_apply resolve s

/-! ## Histories -/

/-- The session after a history in which the addresses may lead elsewhere at each event. -/
def runEach (s : Session) (history : List (Resolver × Event)) : Session :=
  history.foldl (fun s x => x.2.apply x.1 s) s

/-- How many passes the events of a history run, each counted where it happens. -/
def passesAlong (s : Session) : List (Resolver × Event) → Nat
  | [] => 0
  | (resolve, event) :: rest =>
    event.passes resolve s + passesAlong (event.apply resolve s) rest

/-- A history keeps a session current. -/
theorem Current.runEach {s : Session} (h : Current s) (history : List (Resolver × Event)) :
    Current (s.runEach history) := by
  induction history generalizing s with
  | nil => exact h
  | cons x rest ih => exact ih (h.event x.1 x.2)

/-- After a history the generation has grown by the passes of its events, each counted at the
session that the event came to. -/
theorem generation_runEach (s : Session) (history : List (Resolver × Event)) :
    (s.runEach history).generation = s.generation + s.passesAlong history := by
  induction history generalizing s with
  | nil => rfl
  | cons x rest ih =>
    have first := x.2.generation_apply x.1 s
    have others := ih (x.2.apply x.1 s)
    show ((x.2.apply x.1 s).runEach rest).generation
      = s.generation + (x.2.passes x.1 s + (x.2.apply x.1 s).passesAlong rest)
    omega

/-- Every reachable session is one after a history. -/
theorem Reachable.exists_history {s : Session} (h : s.Reachable) :
    ∃ registry canvas store files history,
      s = (start registry canvas store files).runEach history := by
  obtain ⟨registry, canvas, store, files, steps⟩ := h
  refine ⟨registry, canvas, store, files, ?_⟩
  -- The steps are listed in the order they were taken, each with its resolver.
  induction steps with
  | refl => exact ⟨[], rfl⟩
  | tail _ step ih =>
    obtain ⟨history, same⟩ := ih
    cases step with
    | event resolve event =>
      exact ⟨history ++ [(resolve, event)], by simp [same, Session.runEach]⟩

/-- After any history the generation is the number of passes that its events ran, and the
canvas was wiped as often. If there was a pass, the last report is of the latest one, and it
went as a pass over the script goes now, whatever pictures are known and whatever the view
is. The canvas shows just what one pass over the script draws from the view as it is now, over
the pictures that were known at that pass. -/
theorem never_stale (registry : Registry) (canvas : UInt32 × UInt32) (store : Option String)
    (files : FileSystem) (history : List (Resolver × Event)) :
    let first := start registry canvas store files
    let s := first.runEach history
    s.generation = first.passesAlong history ∧
    s.recording.clears = s.generation ∧
    (s.generation ≠ 0 → ∃ report,
      s.lastReport = some report ∧ report.generation = s.generation ∧
      (∀ view cache n,
        report.course = (runPass s.registry view s.script cache n).report.course) ∧
      ∃ cache, report = (runPass s.registry s.viewport s.script cache s.generation).report ∧
        s.recording.currentFrame
          = (runPass s.registry s.viewport s.script cache s.generation).ops) := by
  intro first s
  have current : Current s := (current_start registry canvas store files).runEach history
  refine ⟨?_, current.clears, fun ran => ?_⟩
  · have counted := first.generation_runEach history
    rwa [show first.generation = 0 from rfl, Nat.zero_add] at counted
  · obtain ⟨cache, report, frame⟩ := current.latest ran
    -- The report is that of a pass over the cache then, which has the course of one over any.
    refine ⟨_, report, rfl, fun view other n => ?_, cache, rfl, frame⟩
    exact course_runPass s.registry s.viewport view s.script cache other s.generation n

/-- The view moves while a picture is on its way, and the arrival is handled after that. Of
the seven events four run a pass. -/
theorem never_stale_after_late_arrival :
    let resolve : Resolver := fun url => .ok ⟨url, 4, 3⟩
    let history : List (Resolver × Event) :=
      [(resolve, .input (.setScript "reference a.png")), (resolve, .input .restore),
        (resolve, .input (.loadReference "b" "b.png")),
        (resolve, .input (.setScript "h 5\nreference a.png")),
        (resolve, .input (.setViewport ⟨7.0, 9.0, 2.0⟩)),
        (resolve, .turn (.finish "a.png")), (resolve, .turn .handleArrival)]
    let s := (start builtinRegistry (640, 480) none ⟨[], []⟩).runEach history
    s.generation = 4 ∧ s.script = "h 5\nreference a.png" ∧ s.viewport.panX = 7.0 ∧
    s.cache.inFlight.map Fetch.key = ["b"] ∧
    ∃ report, s.lastReport = some report ∧ report.generation = s.generation ∧
      (∀ view cache n,
        report.course = (runPass s.registry view s.script cache n).report.course) ∧
      ∃ cache, report = (runPass s.registry s.viewport s.script cache s.generation).report ∧
        s.recording.currentFrame
          = (runPass s.registry s.viewport s.script cache s.generation).ops := by
  intro resolve history s
  have four : s.generation = 4 := by decide +kernel
  have ran : s.generation ≠ 0 := by
    rw [four]
    decide
  exact ⟨four, by decide +kernel, by decide +kernel, by decide +kernel,
    (never_stale builtinRegistry (640, 480) none ⟨[], []⟩ history).2.2 ran⟩

end Session

end Linework
