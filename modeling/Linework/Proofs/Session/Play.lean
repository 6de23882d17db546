import Linework.Proofs.Reference.InHand
import Linework.Proofs.Session.Current
import Linework.Proofs.Session.Scene

/-!
# `Linework.Proofs.Session.Play`: passes line by line

A pass looks at the cache once a line, and between two lines the tasks may move. So what a
pass tells need not be what any one cache would have it tell. A `Play` is a scene with the
pass that is under way in it (`Performance`), if there is one, and with those that are over.
A `Move` is the next step of a task or of the session, and the session now takes a step for
each line (`Performance.next`). As with scenes, any list of moves is an interleaving.

An arrival is in hand from before the first line of its pass to after the last one. The tasks
move beside that pass as beside any other, and they wait for the release. What a move can do
is listed once, in `Play.Moves`, and each invariant is read off the list:

* `Attended.moves`: the tasks are in order and wait for arrivals in hand as for those queued, so
  a picture in hand has an entry and is not labelled as cached (`Attended.fresh_of_inHand`).
* `Accounted.moves`: the passes that are over are those that the session ran.
-/

set_option autoImplicit false

namespace Linework.Session

open Cache (TaskStep Tended Asks)

/-! ## A pass and its lines -/

/-- A pass as far as it has come. -/
structure Performance where
  /-- The key of the arrival that the pass is for, if it is for one. -/
  arrival : Option String
  showHints : Bool
  /-- For each line come to, the picture that it places, if any, and its hint. -/
  told : List (Option String × String)
  verdict : Verdict
  cursor : Cursor
  ops : List DrawOp
  /-- The lines not come to. -/
  left : List Line

namespace Performance

/-- A pass over the script before its first line. -/
def begin (s : Session) (arrival : Option String) (showHints : Bool) : Performance where
  arrival := arrival
  showHints := showHints
  told := []
  verdict := .completed
  cursor := .origin
  ops := []
  left := readScript s.script

/-- The pass after its next line, and the cache. After a line that fails no line is left. -/
def next (now : Performance) (r : Registry) (view : Viewport) (cache : Cache) :
    Performance × Cache :=
  match now.left with
  | [] => (now, cache)
  | line :: rest =>
    match r.runLine view now.cursor cache line with
    | .ok effect =>
      ({ now with
          told := now.told ++ [((r.deed line).url?, effect.hint)]
          cursor := effect.cursor
          ops := now.ops ++ effect.ops
          left := rest }, effect.cache)
    | .error hint =>
      ({ now with
          told := now.told ++ [((r.deed line).url?, hint)]
          verdict := .halted (now.told.length + 1)
          left := [] }, cache)

/-- The hints of the lines come to. -/
def hints (now : Performance) : List String := now.told.map Prod.snd

/-- The hints of the lines that place the picture of a key. -/
def sightings (now : Performance) (key : String) : List String :=
  (now.told.filter fun x => x.1 = some key).map Prod.snd

/-- The pass after a line that did not fail, with what the line found out about pictures. -/
def pastLine (now : Performance) (d : Deed) (view : Viewport) (look : String → Option EntryState)
    (rest : List Line) : Performance :=
  { now with
    told := now.told ++ [(d.url?, d.hint now.cursor look)]
    cursor := d.target now.cursor
    ops := now.ops ++ d.ops view now.cursor look
    left := rest }

/-- A line that fails ends the pass, and any other one takes the pass to the line after it. -/
theorem next_cons {now : Performance} {line : Line} {rest : List Line}
    (left : now.left = line :: rest) (r : Registry) (view : Viewport) (cache : Cache) :
    now.next r view cache =
      let d := r.deed line
      if d.fails then
        ({ now with
            told := now.told ++ [(d.url?, d.hint now.cursor cache.get?)]
            verdict := .halted (now.told.length + 1)
            left := [] }, cache)
      else (now.pastLine d view cache.get? rest, cache.requestAll d.url?.toList) := by
  rw [next, left]
  simp only [r.runLine_eq_enact, Deed.enact]
  by_cases hf : (r.deed line).fails = true
  · rw [if_pos hf, if_pos hf]
  · rw [if_neg hf, if_neg hf]
    rfl

/-- With no line left the pass stays where it is. -/
theorem next_of_done {now : Performance} (done : now.left = []) (r : Registry) (view : Viewport)
    (cache : Cache) : now.next r view cache = (now, cache) := by
  rw [next, done]

/-- A line asks for its picture at most, and a line that fails for none. -/
theorem asks_next (now : Performance) (r : Registry) (view : Viewport) (cache : Cache) :
    Asks cache (now.next r view cache).2 := by
  cases left : now.left with
  | nil =>
    rw [next_of_done left]
    exact .refl
  | cons line rest =>
    rw [next_cons left]
    by_cases hf : (r.deed line).fails = true
    · simp only [hf, if_true]
      exact .refl
    · simp only [hf, Bool.false_eq_true, if_false]
      exact Cache.asks_requestAll _ _

/-- A pass is for the same arrival from its first line to its last. -/
theorem arrival_next (now : Performance) (r : Registry) (view : Viewport) (cache : Cache) :
    (now.next r view cache).1.arrival = now.arrival := by
  rw [next]
  split
  · rfl
  · split <;> rfl

end Performance

/-- The session after a pass, which left its cache as it is now. -/
def concluded (s : Session) (now : Performance) : Session :=
  -- What the lines asked for is in the cache already.
  { s with
    generation := s.generation + 1
    recording := s.recording.append
      (.clear :: .moveTo s.viewport.panX s.viewport.panY :: (now.ops ++ [.stroke]))
    shown := if now.showHints then s.shown ++ [now.hints] else s.shown
    lastReport := some
      { hints := now.hints
        verdict := now.verdict
        cursor := now.cursor
        lines := (readScript s.script).length
        generation := s.generation + 1 } }

/-! ## Plays -/

/-- A scene with the pass under way in it and the passes that are over, in order. -/
structure Play where
  scene : Scene
  underway : Option Performance
  ended : List Performance

/-- What happens next. -/
inductive Move where
  /-- The task of a key takes a step. -/
  | task (key : String) (step : TaskStep)
  | hold (url : String)
  | ungate (url : String)
  | keepBack (key : String)
  /-- An input comes in, and its pass begins, if it has one. -/
  | input (input : Input)
  /-- The session receives the oldest arrival, and its pass begins. -/
  | receive
  /-- The pass comes to its next line. -/
  | line
  /-- The pass ends, and the arrival it was for is let go of. -/
  | finish

namespace Play

/-- A session in which nothing happened yet. -/
def start (registry : Registry) (canvas : UInt32 × UInt32) (store : Option String)
    (files : FileSystem) : Play where
  scene := .start registry canvas store files
  underway := none
  ended := []

/-- The cache of the session as it is in the middle of things. -/
def cache (p : Play) : Cache := p.scene.session.cache

/-- The key of the arrival in hand, if there is one. -/
def inHand (p : Play) : List String := (p.underway.bind Performance.arrival).toList

/-- The session with another cache in which no fetch was started. -/
def withCache (p : Play) (cache : Cache) : Play :=
  { p with scene := { p.scene with session := p.scene.session.withCache cache } }

/-- An input comes in: what it changes is changed at once, and its pass is to come. -/
def input (p : Play) (i : Input) : Play :=
  let begun := i.begin p.scene.session
  { p with
    scene := p.scene.become begun.1
    underway := begun.2.map (.begin begun.1 none) }

/-- The oldest arrival is taken in hand, and the pass for it begins. With nothing queued nothing
happens. -/
def receive (p : Play) : Play :=
  match p.cache.receive with
  | (none, _) => p
  | (some key, cache) =>
    { p.withCache cache with underway := some (.begin p.scene.session (some key) true) }

/-- The pass comes to its next line. What the line asks for is asked of the cache as it is now. -/
def line (p : Play) (now : Performance) : Play :=
  let after := now.next p.scene.session.registry p.scene.session.viewport p.cache
  { p with
    scene := p.scene.become (p.scene.session.withCache after.2)
    underway := some after.1 }

/-- The pass is over. -/
def conclude (p : Play) (now : Performance) : Play where
  scene := { p.scene with session := p.scene.session.concluded now }
  underway := none
  ended := p.ended ++ [now]

/-- An arrival is let go of and counts as handled. -/
def letGo (p : Play) (key : String) : Play :=
  { p.withCache (p.cache.letGo key) with
    scene.handled := p.scene.handled ++ [key] }

/-- The pass ends, if no line is left. One that is for an arrival lets go of it then and not
before. -/
def finish (p : Play) (now : Performance) : Play :=
  match now.left, now.arrival with
  -- A pass with lines left cannot end.
  | _ :: _, _ => p
  | [], none => p.conclude now
  | [], some key => (p.conclude now).letGo key

/-- The play after a move. While a pass is under way the session does nothing else. -/
def step (p : Play) (move : Move) : Play :=
  match move, p.underway with
  | .task key step, _ => { p with scene := p.scene.step (.task key step) }
  | .hold url, _ => p.withCache (p.cache.hold url)
  | .ungate url, _ => p.withCache (p.cache.ungate url)
  | .keepBack key, _ => p.withCache (p.cache.keepBack key)
  | .input i, none => p.input i
  | .receive, none => p.receive
  | .line, some now => p.line now
  | .finish, some now => p.finish now
  -- There is no line without a pass, and no input and no receipt during one.
  | _, _ => p

/-- The play after an interleaving. -/
def run (p : Play) (moves : List Move) : Play := moves.foldl step p

/-- What a move can do, if it does anything. -/
inductive Moves (p : Play) : Play → Prop
  | nothing : Moves p p
  | task {key : String} {step : TaskStep} (allowed : p.scene.allows key step = true) :
      Moves p { p with scene := p.scene.advance key step }
  | hold (url : String) : Moves p (p.withCache (p.cache.hold url))
  | ungate (url : String) : Moves p (p.withCache (p.cache.ungate url))
  | keepBack (key : String) : Moves p (p.withCache (p.cache.keepBack key))
  | input (idle : p.underway = none) (i : Input) : Moves p (p.input i)
  | receive (idle : p.underway = none) {key : String} {rest : List String}
      (queue : p.cache.queued = key :: rest) :
      Moves p { p.withCache p.cache.receive.2 with
        underway := some (.begin p.scene.session (some key) true) }
  | line {now : Performance} (busy : p.underway = some now) : Moves p (p.line now)
  | conclude {now : Performance} (busy : p.underway = some now) (alone : now.arrival = none) :
      Moves p (p.conclude now)
  | letGo {now : Performance} (busy : p.underway = some now) {key : String}
      (arrived : now.arrival = some key) : Moves p ((p.conclude now).letGo key)

/-- With something queued its oldest arrival is received. -/
theorem receive_of_queued {p : Play} {key : String} {rest : List String}
    (queue : p.cache.queued = key :: rest) :
    p.receive = { p.withCache p.cache.receive.2 with
      underway := some (.begin p.scene.session (some key) true) } := by
  simp [receive, Cache.receive, queue]

/-- Whatever a move does is in the list. So what all the moves of the list keep, every move
keeps. -/
theorem step_moves (p : Play) (move : Move) : p.Moves (p.step move) := by
  unfold step
  split
  · -- A step of a task that is not allowed does nothing.
    rw [Scene.step]
    split
    · rename_i allowed
      exact .task allowed
    · exact .nothing
  · exact .hold _
  · exact .ungate _
  · exact .keepBack _
  · rename_i idle
    exact .input idle _
  · rename_i idle
    cases queue : p.cache.queued with
    | nil =>
      have nothing : p.receive = p := by simp [receive, Cache.receive, queue]
      rw [nothing]
      exact .nothing
    | cons key rest =>
      rw [receive_of_queued queue]
      exact .receive idle queue
  · rename_i busy
    exact .line busy
  · rename_i busy
    rw [finish]
    split
    · exact .nothing
    · rename_i alone
      exact .conclude busy alone
    · rename_i arrived
      exact .letGo busy arrived
  · exact .nothing

/-- An interleaving can be cut anywhere. -/
theorem run_append (p : Play) (moves more : List Move) :
    p.run (moves ++ more) = (p.run moves).run more :=
  List.foldl_append

end Play

/-! ## The invariant -/

/-- What holds of a play after every move. -/
structure Attended (p : Play) : Prop where
  tended : Tended p.cache.unreceived p.scene.started p.scene.progress p.scene.handled
  received : p.cache.received = p.inHand
  labelled : p.cache.Labelled p.scene.progress

/-- At the start there is no task and no arrival. -/
theorem attended_start (registry : Registry) (canvas : UInt32 × UInt32) (store : Option String)
    (files : FileSystem) : Attended (.start registry canvas store files) where
  tended := Cache.tended_empty
  received := rfl
  labelled := nofun

/-- Before its pass an input asks for the picture it names at most. -/
theorem Input.asks_begin (i : Input) (s : Session) : Asks s.cache (i.begin s).1.cache := by
  cases i with
  | restore =>
    rw [begin]
    split <;> exact .refl
  | loadReference name path => exact Cache.asks_request _ _ _
  | importReference name path => exact Cache.asks_request _ _ _
  | _ => exact .refl

namespace Attended

variable {p : Play}

/-- A picture in hand is known, and not as one that is cached. -/
theorem fresh_of_inHand (h : Attended p) {key : String} (inHand : key ∈ p.inHand) :
    ∃ state, p.cache.get? key = some state ∧ ∀ picture, state ≠ .downloaded picture false := by
  have queued : key ∈ p.cache.unreceived.queued := by
    rw [← h.received] at inHand
    exact List.mem_append_left _ inHand
  obtain ⟨⟨state, found⟩, notYet⟩ := h.tended.of_queued queued
  refine ⟨state, found, ?_⟩
  rintro picture rfl
  exact notYet (h.labelled key picture found)

/-- The session asked for pictures, and its pass is for the same arrival as before, if for any. -/
theorem become (h : Attended p) {s : Session} (asked : Asks p.cache s.cache)
    {underway : Option Performance}
    (same : underway.bind Performance.arrival = p.underway.bind Performance.arrival) :
    Attended { p with scene := p.scene.become s, underway := underway } where
  tended := h.tended.asks asked.unreceived
  received := by
    rw [Play.inHand, same]
    exact asked.received_eq.trans h.received
  labelled := h.labelled.of_get? asked.get?_eq

/-- A change to the cache that concerns no arrival in hand and no entry leaves the play
attended. -/
theorem withCache (h : Attended p) {cache : Cache}
    (tended : Tended cache.unreceived p.scene.started p.scene.progress p.scene.handled)
    (received : cache.received = p.cache.received) (same : ∀ key, cache.get? key = p.cache.get? key) :
    Attended (p.withCache cache) :=
  ⟨tended, received.trans h.received, h.labelled.of_get? same⟩

/-- Between two passes nothing is in hand. -/
theorem received_of_none (h : Attended p) (idle : p.underway = none) : p.cache.received = [] := by
  rw [h.received, Play.inHand, idle]
  rfl

/-- Every move leaves the play attended. -/
theorem moves (h : Attended p) {q : Play} (move : p.Moves q) : Attended q := by
  cases move with
  | nothing => exact h
  | @task key step allowed =>
    obtain ⟨member, source, ready⟩ := (p.scene.allows_iff key step).mp allowed
    refine ⟨?_, (Cache.received_task _ _ _).trans h.received, h.labelled.task source⟩
    show Tended (step.apply key p.cache).unreceived _ _ _
    rw [Cache.unreceived_task]
    -- Whether the task is ready is told by what was let go of, and not by what is in hand.
    exact h.tended.task member source (by cases step <;> exact ready)
  | hold url =>
    have same := Cache.sameTables_hold p.cache.unreceived url
    exact h.withCache (h.tended.of_sameTables same rfl rfl rfl rfl) rfl fun _ => rfl
  | ungate url =>
    have same := Cache.sameTables_ungate p.cache.unreceived url
    exact h.withCache (h.tended.of_sameTables same rfl rfl rfl rfl) rfl fun _ => rfl
  | keepBack key =>
    have same := Cache.sameTables_keepBack p.cache.unreceived key
    exact h.withCache (h.tended.of_sameTables same rfl rfl rfl rfl) rfl fun _ => rfl
  | input idle i =>
    -- The pass of an input is for no arrival.
    have unasked (s : Session) (pass : Option Bool) :
        (pass.map (Performance.begin s none)).bind Performance.arrival = none := by
      cases pass <;> rfl
    refine h.become (i.asks_begin p.scene.session) ?_
    rw [idle]
    exact unasked _ _
  | receive idle queue =>
    have none := h.received_of_none idle
    -- To the tasks nothing happened: what is in hand now was at the head of the queue.
    refine ⟨?_, Cache.received_receive none queue, ?_⟩
    · show Tended p.cache.receive.2.unreceived _ _ _
      rw [Cache.unreceived_receive none queue]
      exact h.tended
    · exact h.labelled.of_get? (Cache.sameTables_receive p.cache).get?_eq
  | @line now busy =>
    refine h.become (now.asks_next _ _ p.cache) ?_
    rw [busy]
    exact now.arrival_next _ _ _
  | conclude busy alone =>
    have none := h.received
    rw [Play.inHand, busy, Option.bind_some, alone] at none
    exact ⟨h.tended, none, h.labelled⟩
  | @letGo now busy key arrived =>
    have inHand : p.cache.received = [key] := by
      rw [h.received, Play.inHand, busy, Option.bind_some, arrived]
      rfl
    have queue : p.cache.unreceived.queued = key :: p.cache.queued := by
      rw [Cache.unreceived, inHand]
      rfl
    -- To the tasks the arrival is handled now, in one step.
    refine ⟨?_, Cache.received_letGo inHand, ?_⟩
    · show Tended (p.cache.letGo key).unreceived _ _ (p.scene.handled ++ [key])
      rw [Cache.unreceived_letGo inHand]
      exact h.tended.handle queue
    · exact h.labelled.of_get? (Cache.sameTables_letGo p.cache key).get?_eq

/-- So does every interleaving. -/
theorem run (h : Attended p) (moves : List Move) : Attended (p.run moves) := by
  induction moves generalizing p with
  | nil => exact h
  | cons move rest ih => exact ih (h.moves (p.step_moves move))

end Attended

/-! ## The account of the passes -/

/-- The passes that are over are as many as the session has run, and its last report is of the
last of them. -/
structure Accounted (p : Play) : Prop where
  counted : p.scene.session.generation = p.ended.length
  report : p.scene.session.lastReport.map Report.hints = p.ended.getLast?.map Performance.hints

/-- No pass is over yet and none was run. -/
theorem accounted_start (registry : Registry) (canvas : UInt32 × UInt32) (store : Option String)
    (files : FileSystem) : Accounted (.start registry canvas store files) :=
  ⟨rfl, rfl⟩

/-- A pass that ends is counted by the session and added to those that are over, and its hints are
reported. -/
theorem Accounted.conclude {p : Play} (h : Accounted p) (now : Performance) :
    Accounted (p.conclude now) where
  counted := by
    show p.scene.session.generation + 1 = (p.ended ++ [now]).length
    rw [h.counted, List.length_append, List.length_singleton]
  report := by simp [Play.conclude, concluded]

/-- Every move leaves the account in order. Only the end of a pass changes it. -/
theorem Accounted.moves {p q : Play} (h : Accounted p) (move : p.Moves q) : Accounted q := by
  cases move with
  | input idle i =>
    obtain ⟨generation, -, report, -⟩ := i.begin_keeps p.scene.session
    exact ⟨generation.trans h.counted, (congrArg (Option.map Report.hints) report).trans h.report⟩
  | @conclude now _ _ => exact h.conclude now
  | @letGo now _ key _ => exact ⟨(h.conclude now).counted, (h.conclude now).report⟩
  -- The other moves touch the cache at most.
  | _ => exact ⟨h.counted, h.report⟩

/-- So does every interleaving. -/
theorem Accounted.run {p : Play} (h : Accounted p) (moves : List Move) : Accounted (p.run moves) := by
  induction moves generalizing p with
  | nil => exact h
  | cons move rest ih => exact ih (h.moves (p.step_moves move))

end Linework.Session
