import Linework.Command.Builtin
import Linework.Proofs.Session.Undisturbed

/-!
# `Linework.Proofs.Session.Sightings`: what is told of one picture over time

A line that places a picture tells how far the picture has come. Over all passes of a session
these hints make a word: the picture is on its way, then it was downloaded, then it is
cached, or it is on its way and then cannot be had. None of this comes back, and the size
never changes.

`Word` says what the word can be by now, from what is known of the picture by now. It is closed
under what moves do to that (`Word.onward`) and under one more look at it (`Word.look`). So all
that has to be shown of a pass is that each of its lines looks once
(`Performance.sightings_next`).

The pass for the arrival of a picture comes while the arrival is in hand, and until it is let
go of the task does not relabel the picture (`Attended.fresh_of_inHand`). So that pass tells
that the picture was downloaded, or that it cannot be had, and nothing else.
-/

set_option autoImplicit false

namespace Linework

/-- The hint of a line that places a picture, with what is known of the picture. -/
def statusOf : Option EntryState → String
  | some state => state.status
  | none => downloadingHint

/-- The hint of a picture that has just arrived. -/
def EntryState.atArrival : EntryState → String
  | downloaded picture _ => "downloaded, " ++ picture.sizeLabel
  | failed _ => failedHint

/-- The hint at arrival is the same after the picture was relabelled. -/
@[simp] theorem EntryState.atArrival_settled (state : EntryState) :
    state.settled.atArrival = state.atArrival := by
  cases state <;> rfl

/-- What is not known as cached is told as it is told at arrival. -/
theorem EntryState.status_of_fresh {state : EntryState}
    (fresh : ∀ picture, state ≠ .downloaded picture false) : state.status = state.atArrival := by
  match state, fresh with
  | .downloaded picture true, _ => rfl
  | .downloaded picture false, fresh => exact absurd rfl (fresh picture)
  | .failed reason, _ => rfl

/-- A line that places a picture tells what is known under its key, wherever the cursor is. -/
theorem Deed.hint_of_url? {d : Deed} {key : String} (places : d.url? = some key) (cursor : Cursor)
    (look : String → Option EntryState) : d.hint cursor look = statusOf (look key) := by
  cases d with
  | picture url x y =>
    cases places
    rw [hint]
    cases look key <;> rfl
  | _ => cases places

/-! ## Words -/

open List (replicate)

/-- What can have been told of a picture by now, with what is known of it now. -/
inductive Word : Option EntryState → List String → Prop
  | waiting (n : Nat) : Word none (replicate n downloadingHint)
  | downloaded (picture : Picture) (n a : Nat) :
      Word (some (.downloaded picture true))
        (replicate n downloadingHint ++ replicate a ("downloaded, " ++ picture.sizeLabel))
  | cached (picture : Picture) (n a b : Nat) :
      Word (some (.downloaded picture false))
        (replicate n downloadingHint ++ replicate a ("downloaded, " ++ picture.sizeLabel)
          ++ replicate b ("cached, " ++ picture.sizeLabel))
  | failed (reason : String) (n a : Nat) :
      Word (some (.failed reason)) (replicate n downloadingHint ++ replicate a failedHint)

/-- Looking once more makes the word longer. -/
theorem Word.look {known : Option EntryState} {word : List String} (h : Word known word) :
    Word known (word ++ [statusOf known]) := by
  cases h with
  | waiting n =>
    have longer := Word.waiting (n + 1)
    rwa [List.replicate_succ'] at longer
  | downloaded picture n a =>
    have longer := Word.downloaded picture n (a + 1)
    rwa [List.replicate_succ', ← List.append_assoc] at longer
  | cached picture n a b =>
    have longer := Word.cached picture n a (b + 1)
    rwa [List.replicate_succ', ← List.append_assoc] at longer
  | failed reason n a =>
    have longer := Word.failed reason n (a + 1)
    rwa [List.replicate_succ', ← List.append_assoc] at longer

/-- While nothing is known anything may come, and afterwards a picture may be relabelled. -/
theorem Word.onward {known later : Option EntryState} {word : List String} (h : Word known word)
    (onward : ∀ state, known = some state → later = some state ∨ later = some state.settled) :
    Word later word := by
  cases h with
  | waiting n =>
    match later with
    | none => exact .waiting n
    | some (.downloaded picture true) => simpa using Word.downloaded picture n 0
    | some (.downloaded picture false) => simpa using Word.cached picture n 0 0
    | some (.failed reason) => simpa using Word.failed reason n 0
  | downloaded picture n a =>
    rcases onward _ rfl with same | settled
    · rw [same]
      exact .downloaded picture n a
    · rw [settled]
      have relabelled := Word.cached picture n a 0
      rwa [List.replicate_zero, List.append_nil] at relabelled
  | cached picture n a b =>
    rcases onward _ rfl with same | same <;> rw [same] <;> exact .cached picture n a b
  | failed reason n a =>
    rcases onward _ rfl with same | same <;> rw [same] <;> exact .failed reason n a

namespace Session

/-! ## What a play told -/

/-- A line that places the picture of the key looks at it once, and no other line does. -/
theorem Performance.sightings_next (now : Performance) (r : Registry) (view : Viewport)
    (cache : Cache) (key : String) :
    (now.next r view cache).1.sightings key = now.sightings key ∨
      (now.next r view cache).1.sightings key
        = now.sightings key ++ [statusOf (cache.get? key)] := by
  cases left : now.left with
  | nil =>
    rw [Performance.next_of_done left]
    exact .inl rfl
  | cons line rest =>
    have told : (now.next r view cache).1.told
        = now.told ++ [((r.deed line).url?, (r.deed line).hint now.cursor cache.get?)] := by
      rw [Performance.next_cons left]
      by_cases hf : (r.deed line).fails = true
      · simp [hf]
      · simp [hf, pastLine]
    by_cases places : (r.deed line).url? = some key
    · right
      simp [sightings, told, places, Deed.hint_of_url? places]
    · left
      simp [sightings, told, places]

namespace Play

/-- All passes in order, the one under way last. -/
def performances (p : Play) : List Performance := p.ended ++ p.underway.toList

/-- The hints of all lines that placed the picture of a key, in order. -/
def told (p : Play) (key : String) : List String :=
  p.performances.flatMap fun now => now.sightings key

/-- Those of them that passes for the arrival of the picture came to. -/
def toldOnArrival (p : Play) (key : String) : List String :=
  (p.performances.filter fun now => now.arrival = some key).flatMap fun now => now.sightings key

end Play

/-- What was told of the picture of a key. -/
structure Sighted (p : Play) (key : String) : Prop where
  word : Word (p.cache.get? key) (p.told key)
  arrival : ∀ hint ∈ p.toldOnArrival key,
    ∃ state, p.cache.get? key = some state ∧ hint = state.atArrival

/-- Nothing was told yet, and nothing is known. -/
theorem sighted_start (registry : Registry) (canvas : UInt32 × UInt32) (store : Option String)
    (files : FileSystem) (key : String) : Sighted (.start registry canvas store files) key where
  word := .waiting 0
  arrival _ h := absurd h List.not_mem_nil

namespace Sighted

variable {p q : Play} {key : String}

/-- Where nothing more was told, what is known may go on. -/
theorem onward (h : Sighted p key) (onward : p.cache.Onward q.cache)
    (told : q.told key = p.told key) (own : q.toldOnArrival key = p.toldOnArrival key) :
    Sighted q key where
  word := by
    rw [told]
    exact h.word.onward (onward key)
  arrival := by
    rw [own]
    intro hint member
    obtain ⟨state, found, rfl⟩ := h.arrival hint member
    rcases onward key state found with same | settled
    · exact ⟨state, same, rfl⟩
    · exact ⟨state.settled, settled, by simp⟩

/-- A pass that begins has told nothing yet. -/
theorem begin (h : Sighted p key) (onward : p.cache.Onward q.cache) (idle : p.underway = none)
    (ended : q.ended = p.ended) {now : Option Performance} (begun : q.underway = now)
    (silent : ∀ other ∈ now, other.told = []) : Sighted q key := by
  have nothing : ∀ other ∈ now, other.sightings key = [] := by
    intro other member
    simp [Performance.sightings, silent other member]
  refine h.onward onward ?_ ?_
  · cases now with
    | none => simp [Play.told, Play.performances, ended, begun, idle]
    | some other => simp [Play.told, Play.performances, ended, begun, idle, nothing other rfl]
  · cases now with
    | none => simp [Play.toldOnArrival, Play.performances, ended, begun, idle]
    | some other =>
      by_cases own : other.arrival = some key
      · simp [Play.toldOnArrival, Play.performances, ended, begun, idle, own, nothing other rfl]
      · simp [Play.toldOnArrival, Play.performances, ended, begun, idle, own]

/-- One line more tells at most what is known of the picture now, which the word can take. -/
theorem line (h : Sighted p key) (attended : Attended p) {now : Performance}
    (busy : p.underway = some now) : Sighted (p.line now) key := by
  have looks := now.sightings_next p.scene.session.registry p.scene.session.viewport p.cache key
  have arrival := now.arrival_next p.scene.session.registry p.scene.session.viewport p.cache
  -- The line asks for a picture at most, and that shows in no later look.
  have known (other : String) : (p.line now).cache.get? other = p.cache.get? other :=
    (now.asks_next p.scene.session.registry p.scene.session.viewport p.cache).get?_eq other
  rcases looks with same | longer
  -- The line places another picture or none.
  · refine h.onward (.of_get? known) ?_ ?_
    · simp [Play.told, Play.performances, Play.line, busy, same]
    · by_cases own : now.arrival = some key
      · simp [Play.toldOnArrival, Play.performances, Play.line, busy, arrival, own, same]
      · simp [Play.toldOnArrival, Play.performances, Play.line, busy, arrival, own]
  · have told : (p.line now).told key = p.told key ++ [statusOf (p.cache.get? key)] := by
      simp [Play.told, Play.performances, Play.line, busy, longer]
    refine ⟨?_, ?_⟩
    · rw [known, told]
      exact h.word.look
    · rw [known]
      by_cases own : now.arrival = some key
      · have ownTold : (p.line now).toldOnArrival key
            = p.toldOnArrival key ++ [statusOf (p.cache.get? key)] := by
          simp [Play.toldOnArrival, Play.performances, Play.line, busy, arrival, own, longer]
        have inHand : key ∈ p.inHand := by simp [Play.inHand, busy, own]
        -- The arrival is in hand, so the picture is known and no task has relabelled it.
        obtain ⟨state, found, fresh⟩ := attended.fresh_of_inHand inHand
        rw [ownTold, found]
        intro hint member
        rcases List.mem_append.mp member with before | now
        · rw [← found]
          exact h.arrival hint before
        · exact ⟨state, rfl, (List.mem_singleton.mp now).trans (state.status_of_fresh fresh)⟩
      · have ownTold : (p.line now).toldOnArrival key = p.toldOnArrival key := by
          simp [Play.toldOnArrival, Play.performances, Play.line, busy, arrival, own]
        rw [ownTold]
        exact h.arrival

/-- Every move keeps what was told in order: a line looks once, and every other move only moves on
what is known. -/
theorem moves (h : Sighted p key) (attended : Attended p) (move : p.Moves q) : Sighted q key := by
  have unchanged (cache : Cache) (same : ∀ other, cache.get? other = p.cache.get? other) :
      Sighted (p.withCache cache) key := h.onward (.of_get? same) rfl rfl
  cases move with
  | nothing => exact h
  | @task other step allowed => exact h.onward (p.cache.onward_task other step) rfl rfl
  | hold url => exact unchanged _ fun _ => rfl
  | ungate url => exact unchanged _ fun _ => rfl
  | keepBack key => exact unchanged _ fun _ => rfl
  | input idle i =>
    -- An input begins a pass that has told nothing, and asking for pictures shows in no lookup.
    refine h.begin (.of_get? (i.asks_begin p.scene.session).get?_eq) idle rfl rfl ?_
    intro other begun
    obtain ⟨showHints, -, rfl⟩ := Option.map_eq_some_iff.mp begun
    rfl
  | receive idle queue =>
    refine h.begin (.of_get? (Cache.sameTables_receive p.cache).get?_eq) idle rfl rfl ?_
    rintro other ⟨⟩
    rfl
  | line busy => exact h.line attended busy
  | conclude busy alone =>
    refine h.onward (.of_get? fun _ => rfl) ?_ ?_
    · simp [Play.told, Play.performances, Play.conclude, busy]
    · simp [Play.toldOnArrival, Play.performances, Play.conclude, busy]
  | @letGo now busy own arrived =>
    refine h.onward (.of_get? (Cache.sameTables_letGo p.cache own).get?_eq) ?_ ?_
    · simp [Play.told, Play.performances, Play.letGo, Play.withCache, Play.conclude, busy]
    · simp [Play.toldOnArrival, Play.performances, Play.letGo, Play.withCache, Play.conclude, busy]

/-- So does every interleaving of moves. -/
theorem run (h : Sighted p key) (attended : Attended p) (moves : List Move) :
    Sighted (p.run moves) key := by
  -- The tasks are carried along, for a line in the pass of an arrival relies on them.
  induction moves generalizing p with
  | nil => exact h
  | cons move rest ih =>
    have moved := p.step_moves move
    exact ih (h.moves attended moved) (attended.moves moved)

/-- The word has one size in it, and the pass for the arrival tells of that size or of none. -/
theorem exists_picture (h : Sighted p key) :
    ∃ picture : Picture,
      (∃ n a b,
        p.told key = replicate n downloadingHint
          ++ replicate a ("downloaded, " ++ picture.sizeLabel)
          ++ replicate b ("cached, " ++ picture.sizeLabel) ∧
        ∀ hint ∈ p.toldOnArrival key, hint = "downloaded, " ++ picture.sizeLabel) ∨
      ∃ n a,
        p.told key = replicate n downloadingHint ++ replicate a failedHint ∧
        ∀ hint ∈ p.toldOnArrival key, hint = failedHint := by
  obtain ⟨word, arrival⟩ := h
  -- What is known of the picture by now says which of the words it is, and which size.
  generalize p.cache.get? key = known, p.told key = told at word arrival
  cases word with
  | waiting n =>
    -- Before the picture has an entry no arrival was in hand, so any size will do.
    refine ⟨⟨"", 0, 0⟩, .inl ⟨n, 0, 0, by simp, fun hint member => ?_⟩⟩
    obtain ⟨state, found, -⟩ := arrival hint member
    cases found
  | downloaded picture n a =>
    refine ⟨picture, .inl ⟨n, a, 0, by simp, fun hint member => ?_⟩⟩
    obtain ⟨state, found, rfl⟩ := arrival hint member
    cases found
    rfl
  | cached picture n a b =>
    refine ⟨picture, .inl ⟨n, a, b, rfl, fun hint member => ?_⟩⟩
    obtain ⟨state, found, rfl⟩ := arrival hint member
    cases found
    rfl
  | failed reason n a =>
    refine ⟨⟨"", 0, 0⟩, .inr ⟨n, a, rfl, fun hint member => ?_⟩⟩
    obtain ⟨state, found, rfl⟩ := arrival hint member
    cases found
    rfl

end Sighted

/-- Whatever the tasks do between the lines of passes, the hints of the lines that place the
picture of a key are these, over all passes in order: first that it is on its way, then that it
was downloaded and then that it is cached, always with the one size, or else that it cannot
be had. In the pass for its own arrival each of them says that it was downloaded, or each that
it cannot be had.

The passes are those that the session ran, and its last report is of the last of them. And such
plays are all that a session can do: every history of one is what some play comes to. -/
theorem hints_in_order (registry : Registry) (canvas : UInt32 × UInt32) (store : Option String)
    (files : FileSystem) :
    (∀ moves : List Move,
      let p := (Play.start registry canvas store files).run moves
      p.scene.session.generation = p.ended.length ∧
      p.scene.session.lastReport.map Report.hints = p.ended.getLast?.map Performance.hints ∧
      ∀ key, ∃ picture : Picture,
        (∃ n a b,
          p.told key = replicate n downloadingHint
            ++ replicate a ("downloaded, " ++ picture.sizeLabel)
            ++ replicate b ("cached, " ++ picture.sizeLabel) ∧
          ∀ hint ∈ p.toldOnArrival key, hint = "downloaded, " ++ picture.sizeLabel) ∨
        ∃ n a,
          p.told key = replicate n downloadingHint ++ replicate a failedHint ∧
          ∀ hint ∈ p.toldOnArrival key, hint = failedHint) ∧
    ∀ history : List (Resolver × Event), ∃ moves,
      ((Play.start registry canvas store files).run moves).scene.session
        = (start registry canvas store files).runEach history := by
  have attended : Attended (.start registry canvas store files) := attended_start _ _ _ _
  refine ⟨fun moves => ?_, fun history => ?_⟩
  · have accounted := (accounted_start registry canvas store files).run moves
    refine ⟨accounted.counted, accounted.report, fun key => ?_⟩
    exact ((sighted_start registry canvas store files key).run attended moves).exists_picture
  · have calm : (Play.start registry canvas store files).scene.Calm := fun _ => by
      constructor <;> simp [Play.start, Scene.start]
    obtain ⟨moves, session, -⟩ := attended.comesTo_runEach rfl calm history
    exact ⟨moves, session⟩

/-- The picture comes between the two lines of the first pass, and its task leaves between those
of the second one, which is for its arrival. -/
example :
    let p := (Play.start builtinRegistry (640, 480) none ⟨[], []⟩).run
      [.input (.setScript "reference a.png\nreference a.png"), .line,
        .task "a.png" (.store (.ok ⟨"a.png", 4, 3⟩)), .line, .finish, .task "a.png" .announce,
        .receive, .line, .task "a.png" .depart, .task "a.png" .relabel, .line, .finish,
        .task "a.png" .relabel, .input .resetZoom, .line, .line]
    p.told "a.png" = ["downloading…", "downloaded, 4×3", "downloaded, 4×3", "downloaded, 4×3",
        "cached, 4×3", "cached, 4×3"] ∧
      p.toldOnArrival "a.png" = ["downloaded, 4×3", "downloaded, 4×3"] := by
  decide +kernel

end Session

end Linework
