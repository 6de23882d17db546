import Linework.Proofs.Reference.Task
import Linework.Proofs.Session.Settle

/-!
# `Linework.Proofs.Session.Scene`: a session among its tasks

The tasks that carry the fetches run beside the session that settles. A `Scene` has the
session with all its tasks: how far each has come, and where in the loop of settling the
session is. An `Act` is the next step of any of them. Nothing orders the acts, so a list of
them is an interleaving, and every list is one: an act that cannot be taken changes nothing.

The session asks whether anything is in flight, deals with the arrivals queued one at a time,
and waits for one more, and each of these is an act of its own (`Scene.proceed`). So between
its question and its wait the tasks may move, and what it asked for may not be so any longer.
An arrival is dealt with in one act, from its receipt to its release. The pass in between asks
for nothing that the cache does not know, so all it does to the cache is at those two ends
(`cache_handleArrival`).

Everything started has the session for its owner, and the session listens as long as it lives.
That the owner of a cache may leave is not part of the scene.

`Orderly` is kept by every act (`Orderly.step`), hence by every interleaving (`Orderly.run`).
The one thing that the session may rely on in its loop is `Phase.Fits`: where nothing was in
flight when it asked, nothing is in flight until it has settled.
-/

set_option autoImplicit false

namespace Linework.Session

open Cache (Progress TaskStep Tended Asks launched)

/-! ## Scenes -/

/-- Where in the loop of settling the session is. -/
inductive Phase where
  /-- Not settling. -/
  | free
  /-- About to ask whether anything is in flight. -/
  | asking
  /-- Dealing with what is queued, knowing whether nothing was in flight when it asked. -/
  | draining (idle : Bool)
  /-- Waiting for an arrival. -/
  | waiting
  /-- Settling has returned, because nothing was in flight or because it gave up. -/
  | settled (idle : Bool)
  deriving DecidableEq, Repr

/-- Whether the session can be used. While it settles it cannot. -/
def Phase.atRest : Phase → Bool
  | free => true
  | settled _ => true
  | _ => false

/-- A session with its tasks. -/
structure Scene where
  session : Session
  phase : Phase
  /-- The keys of all fetches ever started, in the order of their requests. -/
  started : List String
  progress : String → Progress
  /-- The keys of the arrivals that the session has handled. -/
  handled : List String

/-- What happens next. -/
inductive Act where
  /-- The task of a key takes a step. -/
  | task (key : String) (step : TaskStep)
  | input (input : Input)
  /-- The session handles an arrival without settling. -/
  | handle
  /-- The session begins to settle. -/
  | settle
  /-- The settling session takes its next step. -/
  | proceed
  /-- The time for the wait is over. -/
  | expire

namespace Scene

/-- A session in which nothing happened yet. -/
def start (registry : Registry) (canvas : UInt32 × UInt32) (store : Option String)
    (files : FileSystem) : Scene where
  session := Session.start registry canvas store files
  phase := .free
  started := []
  progress _ := .fetching
  handled := []

/-- The scene in another phase. -/
def enter (sc : Scene) (phase : Phase) : Scene := { sc with phase := phase }

/-- The session did something. What is in flight now and was not before has started. -/
def become (sc : Scene) (after : Session) : Scene :=
  { sc with session := after, started := sc.started ++ launched sc.session.cache after.cache }

/-- The session deals with the oldest arrival, if there is one. -/
def handle (sc : Scene) : Scene :=
  match sc.session.cache.queued with
  | [] => sc
  | key :: _ =>
    let after := sc.become sc.session.handleArrival
    { after with handled := after.handled ++ [key] }

/-- The next step of the loop of settling. A session that waits with nothing queued is
suspended: it takes no step. -/
def proceed (sc : Scene) : Scene :=
  match sc.phase, sc.session.cache.queued with
  | .asking, _ => sc.enter (.draining sc.session.cache.inFlight.isEmpty)
  | .draining _, _ :: _ => sc.handle
  | .draining true, [] => sc.enter (.settled true)
  | .draining false, [] => sc.enter .waiting
  | .waiting, _ :: _ => sc.handle.enter .asking
  | _, _ => sc

/-- Whether the task of a key can take a step now. -/
def allows (sc : Scene) (key : String) (step : TaskStep) : Bool :=
  decide (key ∈ sc.started) && decide (sc.progress key = step.source)
    && step.ready key sc.session.cache

/-- The task of a key takes a step. -/
def advance (sc : Scene) (key : String) (step : TaskStep) : Scene :=
  { sc with
    session := sc.session.withCache (step.apply key sc.session.cache)
    progress := Function.update sc.progress key step.target }

/-- The scene after an act. -/
def step (sc : Scene) : Act → Scene
  | .task key step => if sc.allows key step then sc.advance key step else sc
  | .input input => if sc.phase.atRest then (sc.become (input.apply sc.session)).enter .free else sc
  | .handle => if sc.phase.atRest then sc.handle.enter .free else sc
  | .settle => if sc.phase.atRest then sc.enter .asking else sc
  | .proceed => sc.proceed
  | .expire => if sc.phase = .waiting then sc.enter (.settled false) else sc

/-- The scene after an interleaving. -/
def run (sc : Scene) (acts : List Act) : Scene := acts.foldl step sc

/-- A task can take a step if it was started, has come as far as the step begins, and has not to
wait. -/
theorem allows_iff (sc : Scene) (key : String) (step : TaskStep) :
    sc.allows key step = true ↔
      key ∈ sc.started ∧ sc.progress key = step.source ∧ step.ready key sc.session.cache = true := by
  simp only [allows, Bool.and_eq_true, decide_eq_true_eq, and_assoc]

/-- A step that can be taken is taken. -/
theorem step_of_allows {sc : Scene} {key : String} {step : TaskStep}
    (allowed : sc.allows key step = true) : sc.step (.task key step) = sc.advance key step :=
  if_pos allowed

/-- An interleaving can be cut anywhere. -/
theorem run_append (sc : Scene) (acts more : List Act) :
    sc.run (acts ++ more) = (sc.run acts).run more :=
  List.foldl_append

end Scene

/-! ## What an input asks for -/

/-- From the cache on, the session asked for pictures and did nothing else to its cache, and
all that its script wants is known now. -/
structure Asked (c : Cache) (s : Session) : Prop where
  asks : Asks c s.cache
  known : ∀ url ∈ s.wanted, s.cache.knows url = true

/-- A pass asks for the pictures of the script and knows them afterwards. -/
theorem asked_rerun (s : Session) (showHints : Bool) : Asked s.cache (s.rerun showHints) where
  asks := by
    rw [cache_rerun]
    exact Cache.asks_requestAll _ _
  known _ wanted := s.knows_rerun showHints wanted

/-- A picture asked for under a name takes nothing from what the script wants. -/
theorem asked_loadReference {s : Session} (known : ∀ url ∈ s.wanted, s.cache.knows url = true)
    (name path : String) : Asked s.cache (s.loadReference name path) where
  asks := Cache.asks_request _ _ _
  known url wanted := by
    show (s.cache.request name path).knows url = true
    rw [Cache.knows_request, known url wanted, Bool.true_or]

/-- An edit asks for what the new script wants. -/
theorem Asked.setScript {c : Cache} {s : Session} (h : Asked c s) (text : String) :
    Asked c (s.setScript text) := by
  have last := asked_rerun { s with script := text, files := s.filesAfterSaving text } true
  exact ⟨h.asks.trans last.asks, last.known⟩

/-- All that an input does to the cache is to ask for pictures. -/
theorem asked_input {s : Session} (known : ∀ url ∈ s.wanted, s.cache.knows url = true)
    (input : Input) : Asked s.cache (input.apply s) := by
  have same : Asked s.cache s := ⟨.refl, known⟩
  have viewed (view : Viewport) : Asked s.cache (s.setViewport view) :=
    asked_rerun { s with viewport := view } false
  cases input with
  | setScript text => exact same.setScript text
  | restore =>
    show Asked s.cache s.restore.2
    rw [restore]
    split
    · exact same.setScript _
    · exact same
    · exact same
  | loadReference name path => exact asked_loadReference known name path
  | importReference name path => exact (asked_loadReference known name path).setScript _
  | panBy dx dy => exact viewed _
  | zoomBy delta pinch => exact viewed _
  | resetZoom => exact viewed _
  | recenter => exact viewed _
  | setViewport view => exact viewed view
  | setFiles files => exact ⟨.refl, known⟩

/-! ## The invariant -/

/-- What a session may rely on in a phase. -/
def Phase.Fits : Phase → Cache → Prop
  | .draining true, c => c.inFlight = []
  | .settled true, c => c.inFlight = [] ∧ c.queued = []
  | _, _ => True

/-- Where nothing is in flight it stays so, and then nothing gets queued either. -/
theorem Phase.Fits.later {phase : Phase} {c d : Cache} (h : phase.Fits c)
    (landed : c.inFlight = [] → d.inFlight = [])
    (none : c.inFlight = [] → c.queued = [] → d.queued = []) : phase.Fits d := by
  match phase, h with
  | .draining true, h => exact landed h
  | .settled true, h => exact ⟨landed h.1, none h.1 h.2⟩
  | .free, _ | .asking, _ | .draining false, _ | .waiting, _ | .settled false, _ => trivial

/-- What holds of a scene after every act. -/
structure Orderly (sc : Scene) : Prop where
  tended : Tended sc.session.cache sc.started sc.progress sc.handled
  known : ∀ url ∈ sc.session.wanted, sc.session.cache.knows url = true
  fits : sc.phase.Fits sc.session.cache

/-- A session in which nothing happened has no tasks. -/
theorem orderly_start (registry : Registry) (canvas : UInt32 × UInt32) (store : Option String)
    (files : FileSystem) : Orderly (.start registry canvas store files) where
  tended := Cache.tended_empty
  known := (steady_start registry canvas store files).known
  fits := trivial

namespace Orderly

variable {sc : Scene}

/-- A scene may enter any phase in which what the session relies on is so. -/
theorem enter (h : Orderly sc) {phase : Phase} (fits : phase.Fits sc.session.cache) :
    Orderly (sc.enter phase) :=
  ⟨h.tended, h.known, fits⟩

/-- An input asks for pictures, and a task is started for each that was not known. -/
theorem input (h : Orderly sc) (input : Input) :
    Orderly ((sc.become (input.apply sc.session)).enter .free) where
  tended := h.tended.asks (asked_input h.known input).asks
  known := (asked_input h.known input).known
  fits := trivial

/-- Handling an arrival starts no task, so the scene after it is the session after it with one
arrival more handled. -/
theorem handle_eq (h : Orderly sc) {key : String} {rest : List String}
    (queue : sc.session.cache.queued = key :: rest) :
    sc.handle = { sc with session := sc.session.handleArrival, handled := sc.handled ++ [key] } := by
  have flying : sc.session.handleArrival.cache.inFlight = sc.session.cache.inFlight := by
    rw [cache_handleArrival h.known queue, Cache.inFlight_letGo, Cache.receive, queue]
  simp [Scene.handle, queue, Scene.become, Cache.launched_of_inFlight_eq flying]

/-- Handling an arrival keeps the scene orderly in every phase. -/
theorem handle (h : Orderly sc) : Orderly sc.handle := by
  cases queue : sc.session.cache.queued with
  | nil =>
    rw [Scene.handle, queue]
    exact h
  | cons key rest =>
    have cache := cache_handleArrival h.known queue
    have same : Cache.SameTables sc.session.cache sc.session.handleArrival.cache := by
      rw [cache]
      exact (Cache.sameTables_receive _).trans (Cache.sameTables_letGo _ key)
    have script : sc.session.handleArrival.wanted = sc.session.wanted := by
      rw [handleArrival_of_queued queue]
      rfl
    rw [h.handle_eq queue]
    -- The tables stay, so what the script wants is known as before, and nothing lands.
    refine ⟨?_, fun url wanted => ?_, h.fits.later ?_ ?_⟩
    · show Tended sc.session.handleArrival.cache sc.started sc.progress (sc.handled ++ [key])
      rw [cache]
      exact h.tended.handle queue
    · exact (same.knows_eq url).trans (h.known url (script ▸ wanted))
    · intro landed
      show sc.session.handleArrival.cache.inFlight = []
      rw [cache, Cache.inFlight_letGo, Cache.receive, queue]
      exact landed
    · intro _ none
      rw [queue] at none
      cases none

/-- A step of a task keeps the scene orderly. -/
theorem task (h : Orderly sc) {key : String} {step : TaskStep} (allowed : sc.allows key step = true) :
    Orderly (sc.advance key step) := by
  obtain ⟨member, source, ready⟩ := (sc.allows_iff key step).mp allowed
  have tended := h.tended.task member source ready
  -- What is known is what was started, and no step of a task starts anything.
  refine ⟨tended, fun url wanted => ?_, h.fits.later (fun landed => ?_) fun landed none => ?_⟩
  · exact (tended.knows_iff url).mpr ((h.tended.knows_iff url).mp (h.known url wanted))
  -- Where nothing is in flight the task can only relabel, and that neither lands anything nor
  -- queues anything.
  · rw [h.tended.relabels_of_landed landed member source]
    exact (Cache.inFlight_relabelKey _ key).trans landed
  · rw [h.tended.relabels_of_landed landed member source]
    exact (Cache.queued_relabelKey _ key).trans none

/-- The next step of the settling session keeps the scene orderly. -/
theorem proceed (h : Orderly sc) : Orderly sc.proceed := by
  unfold Scene.proceed
  split
  · -- The session asks.
    refine h.enter ?_
    cases landed : sc.session.cache.inFlight.isEmpty with
    | true => exact List.isEmpty_iff.mp landed
    | false => trivial
  · exact h.handle
  · -- It has dealt with everything queued, and nothing was in flight when it asked.
    rename_i phase none
    have fits := h.fits
    rw [phase] at fits
    exact h.enter ⟨fits, none⟩
  · exact h.enter trivial
  · exact h.handle.enter trivial
  · exact h

/-- An act that cannot be taken changes nothing. -/
theorem ite (h : Orderly sc) {can : Prop} [Decidable can] {next : Scene}
    (taken : can → Orderly next) : Orderly (if can then next else sc) := by
  split
  · rename_i allowed
    exact taken allowed
  · exact h

/-- Every act keeps the scene orderly. Those that the phase forbids change nothing. -/
theorem step (h : Orderly sc) (act : Act) : Orderly (sc.step act) := by
  cases act with
  | task key step => exact h.ite h.task
  | input input => exact h.ite fun _ => h.input input
  | handle => exact h.ite fun _ => h.handle.enter trivial
  | settle => exact h.ite fun _ => h.enter trivial
  | proceed => exact h.proceed
  | expire => exact h.ite fun _ => h.enter trivial

/-- Every interleaving keeps the scene orderly. -/
theorem run (h : Orderly sc) (acts : List Act) : Orderly (sc.run acts) := by
  induction acts generalizing sc with
  | nil => exact h
  | cons act rest ih => exact ih (h.step act)

end Orderly

end Linework.Session
