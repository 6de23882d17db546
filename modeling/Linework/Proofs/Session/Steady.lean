import Linework.Command.Builtin
import Linework.Proofs.Pass.Frame
import Linework.Proofs.Reference.Ahead
import Linework.Proofs.Session.Events

/-!
# `Linework.Proofs.Session.Steady`: what holds between events

Four things hold of a session whenever nothing is being done to it (`Steady`): the
tables of its cache are in order, it listens to arrivals, its cache knows every picture
that its script wants, and, unless an arrival is queued, what it drew and told last is
what it would draw and tell now (`UpToDate`). The last one is up to reading hints as
cached, for a picture is relabelled without a pass.

An event breaks the last one only by queueing an arrival, and dealing with an arrival is
a pass, which sets everything right (`upToDate_rerun`). So the four things are kept by
every input (`Steady.input`) and by every short turn (`Steady.quiet`), and hold of
every reachable session (`Reachable.steady`).

`lastShown_of_idle` reads it at rest: the hints shown last are those of a pass over the
script now, and none of them says that a picture is on its way.
-/

set_option autoImplicit false

namespace Linework.Session

open Relation (ReflTransGen)

/-! ## The pass that is due now -/

/-- The pictures that the script wants. -/
def wanted (s : Session) : List String := s.registry.wanted (readScript s.script)

/-- A pass over the script as it is now. -/
def pass (s : Session) (generation : Nat) : Pass :=
  runPass s.registry s.viewport s.script s.cache generation

/-- The hints shown last, if any were shown, read like those of a pass now. -/
def ShowsNow (s : Session) : Prop :=
  ∀ hints, s.shown.getLast? = some hints →
    hints.map readAsCached = (s.pass s.generation).report.hints.map readAsCached

/-- What was drawn and told last is what would be drawn and told now. -/
structure UpToDate (s : Session) : Prop where
  shown : s.ShowsNow
  /-- Before the first pass the canvas is empty. -/
  frame : s.recording.currentFrame
    = if s.generation = 0 then [] else (s.pass s.generation).ops
  report : s.lastReport.map (Report.read readAsCached)
    = if s.generation = 0 then none else some ((s.pass s.generation).report.read readAsCached)

/-- All that a pass does to the cache is to ask for what the script wants. -/
theorem cache_rerun (s : Session) (showHints : Bool) :
    (s.rerun showHints).cache = s.cache.requestAll s.wanted :=
  cache_runPass s.registry s.viewport s.script s.cache (s.generation + 1)

/-- A pass makes known what the script wants. -/
theorem knows_rerun (s : Session) (showHints : Bool) {url : String} (wanted : url ∈ s.wanted) :
    (s.rerun showHints).cache.knows url = true := by
  rw [cache_rerun, Cache.knows_requestAll, decide_eq_true wanted, Bool.or_true]

/-- The pictures that a pass asks for do not show in a pass after it. -/
theorem alike_cache_rerun (s : Session) (showHints : Bool) :
    s.cache.Alike readAsCached (s.rerun showHints).cache := by
  rw [cache_rerun]
  exact .of_get? _ fun key => (s.cache.get?_requestAll s.wanted key).symm

/-- The view does not show in hints. -/
theorem ShowsNow.of_alike {s : Session} (h : s.ShowsNow) (view : Viewport) {cache : Cache}
    (alike : s.cache.Alike readAsCached cache) :
    ShowsNow { s with viewport := view, cache := cache } := by
  intro hints last
  rw [h hints last]
  exact congrArg Report.hints
    (read_runPass s.registry s.viewport view s.script alike s.generation)

/-- Pictures that read alike make no difference to what was drawn and told. Only the freshness of
a picture may change, and hints are compared with the fresh ones read as cached. -/
theorem UpToDate.of_alike {s : Session} (h : s.UpToDate) {cache : Cache}
    (alike : s.cache.Alike readAsCached cache) : UpToDate { s with cache := cache } where
  shown := h.shown.of_alike s.viewport alike
  frame := by
    rw [h.frame]
    exact congrArg (fun ops => if s.generation = 0 then [] else ops)
      (ops_runPass_congr s.registry s.viewport s.script alike s.generation s.generation)
  report := by
    rw [h.report]
    exact congrArg (fun report => if s.generation = 0 then none else some report)
      (read_runPass s.registry s.viewport s.viewport s.script alike s.generation)

/-- A pass sets everything right. One that shows no hints has to find the shown ones
right. -/
theorem upToDate_rerun (s : Session) (showHints : Bool) (h : showHints = false → s.ShowsNow) :
    (s.rerun showHints).UpToDate where
  shown := by
    cases showHints with
    | false =>
      -- The shown hints stay, and the pass left the entries alone.
      have later := (h rfl).of_alike s.viewport (s.alike_cache_rerun false)
      intro hints last
      rw [later hints last]
      rfl
    | true =>
      intro hints last
      have : hints = (s.pass (s.generation + 1)).report.hints :=
        (Option.some.inj (List.getLast?_concat.symm.trans last)).symm
      rw [this]
      exact congrArg Report.hints
        (read_runPass s.registry s.viewport s.viewport s.script (s.alike_cache_rerun true) _)
  frame := by
    have later : (s.rerun showHints).generation ≠ 0 := Nat.succ_ne_zero s.generation
    rw [if_neg later]
    exact (currentFrame_append_runPass _ _ _ _ _ _).trans
      (ops_runPass_congr s.registry s.viewport s.script (s.alike_cache_rerun showHints) _ _)
  report := by
    have later : (s.rerun showHints).generation ≠ 0 := Nat.succ_ne_zero s.generation
    rw [if_neg later]
    exact congrArg some
      (read_runPass s.registry s.viewport s.viewport s.script (s.alike_cache_rerun showHints) _)

/-! ## The invariant -/

/-- What holds of a session whenever nothing is being done to it. -/
structure Steady (s : Session) : Prop where
  kept : s.cache.WellKept
  listening : s.cache.listening = true
  known : ∀ url ∈ s.wanted, s.cache.knows url = true
  upToDate : s.cache.queued = [] → s.UpToDate

/-- A session in which nothing happened wants no picture and has shown nothing. -/
theorem steady_start (registry : Registry) (canvas : UInt32 × UInt32) (store : Option String)
    (files : FileSystem) : (start registry canvas store files).Steady where
  kept := Cache.wellKept_empty
  listening := rfl
  known := by
    -- The empty script has one line, which says nothing.
    have nothing : (start registry canvas store files).wanted = [] := rfl
    rw [nothing]
    exact fun url h => absurd h List.not_mem_nil
  upToDate _ := ⟨fun hints h => absurd h (Option.some_ne_none hints).symm, rfl, rfl⟩

/-- A pass makes the pictures known that the script wants, whatever was known before. -/
theorem steady_rerun {s : Session} (kept : s.cache.WellKept) (listening : s.cache.listening = true)
    (showHints : Bool) (h : showHints = false → s.cache.queued = [] → s.ShowsNow) :
    (s.rerun showHints).Steady where
  kept := by
    rw [cache_rerun]
    exact kept.requestAll s.wanted
  listening := by rw [cache_rerun, Cache.listening_requestAll, listening]
  known _ wanted := s.knows_rerun showHints wanted
  upToDate := by
    intro none
    rw [cache_rerun, Cache.queued_requestAll] at none
    exact s.upToDate_rerun showHints fun hidden => h hidden none

/-- What the cache has besides its tables counts only for who listens and what is queued. -/
theorem Steady.of_sameTables {s : Session} (h : s.Steady) {cache : Cache}
    (same : Cache.SameTables s.cache cache) (listening : cache.listening = s.cache.listening)
    (queued : cache.queued = s.cache.queued) : Steady { s with cache := cache } where
  kept := h.kept.of_sameTables same
  listening := listening.trans h.listening
  known url wanted := (same.knows_eq url).trans (h.known url wanted)
  upToDate none := (h.upToDate (queued ▸ none)).of_alike (.of_get? _ fun key => (same.get?_eq key).symm)

/-- Drifting queues an arrival or changes nothing that shows. -/
theorem Steady.drift {resolve : Resolver} {s : Session} (h : s.Steady) {cache : Cache}
    (drift : Cache.Drift resolve s.cache cache) : Steady { s with cache := cache } where
  kept := drift.wellKept h.kept
  listening := drift.listening_eq.trans h.listening
  known url wanted := ((drift.ahead h.kept).knows_eq url).trans (h.known url wanted)
  upToDate none := by
    -- No arrival is queued, so no fetch ended.
    obtain ⟨before, same⟩ := drift.outcome?_of_queued h.listening none
    exact (h.upToDate before).of_alike (.of_outcome? same)

/-- An arrival is dealt with by a pass that shows its hints, so it does not matter what
was shown before it. -/
theorem Steady.handleArrival {s : Session} (h : s.Steady) : s.handleArrival.Steady := by
  cases queue : s.cache.queued with
  | nil => rwa [handleArrival_of_empty queue]
  | cons key rest =>
    rw [handleArrival_of_queued queue]
    -- Between receipt and pass the session need not be up to date; the pass makes it so.
    have passed : (rerun { s with cache := s.cache.receive.2 } true).Steady :=
      steady_rerun (h.kept.of_sameTables (Cache.sameTables_receive _))
        ((Cache.listening_receive _).trans h.listening) true nofun
    exact passed.of_sameTables (Cache.sameTables_letGo _ key) (Cache.listening_letGo _ key)
      (Cache.queued_letGo _ key)

/-- A short turn keeps a session steady. -/
theorem Steady.quiet {resolve : Resolver} {s t : Session} (h : s.Steady)
    (step : Quiet resolve s t) : t.Steady := by
  cases step with
  | drift drift => exact h.drift drift
  | arrival => exact h.handleArrival

/-- So do short turns one after another. -/
theorem Steady.chain {resolve : Resolver} {s t : Session} (h : s.Steady)
    (steps : ReflTransGen (Quiet resolve) s t) : t.Steady := by
  induction steps with
  | refl => exact h
  | tail _ step ih => exact ih.quiet step

/-- An edit ends in a pass that shows its hints, so nothing has to be assumed of what was shown
before. -/
theorem Steady.setScript {s : Session} (h : s.Steady) (text : String) : (s.setScript text).Steady :=
  steady_rerun (s := { s with script := text, files := s.filesAfterSaving text }) h.kept h.listening
    true nofun

/-- The hints shown before a change of the view are right after it too. -/
theorem Steady.setViewport {s : Session} (h : s.Steady) (view : Viewport) :
    (s.setViewport view).Steady :=
  steady_rerun (s := { s with viewport := view }) h.kept h.listening false fun _ none =>
    (h.upToDate none).shown.of_alike view fun _ => rfl

/-- A picture asked for under a name shows in no lookup yet. -/
theorem Steady.loadReference {s : Session} (h : s.Steady) (name path : String) :
    (s.loadReference name path).Steady where
  kept := h.kept.request name path
  listening := (Cache.listening_request _ _ _).trans h.listening
  known url wanted := by
    have : s.cache.knows url = true := h.known url wanted
    show (s.cache.request name path).knows url = true
    rw [Cache.knows_request, this, Bool.true_or]
  upToDate none := by
    refine (h.upToDate ((Cache.queued_request _ _ _).symm.trans none)).of_alike ?_
    exact .of_get? _ fun key => (Cache.get?_request _ _ _ key).symm

/-- Every input keeps a session steady. Most end in a pass; the others change nothing that a pass
would show. -/
theorem Steady.input {s : Session} (h : s.Steady) (input : Input) : (input.apply s).Steady := by
  cases input with
  | setScript text => exact h.setScript text
  | restore =>
    show s.restore.2.Steady
    rw [restore]
    split
    · exact h.setScript _
    · exact h
    · exact h
  | loadReference name path => exact h.loadReference name path
  | importReference name path => exact (h.loadReference name path).setScript _
  | panBy dx dy => exact h.setViewport _
  | zoomBy delta pinch => exact h.setViewport _
  | resetZoom => exact h.setViewport _
  | recenter => exact h.setViewport _
  | setViewport view => exact h.setViewport view
  | setFiles files =>
    -- The files show in no pass.
    exact ⟨h.kept, h.listening, h.known, fun none =>
      ⟨(h.upToDate none).shown, (h.upToDate none).frame, (h.upToDate none).report⟩⟩

/-- Every event keeps a session steady, wherever the addresses lead at that moment. -/
theorem Steady.event {s : Session} (h : s.Steady) (resolve : Resolver) (event : Event) :
    (event.apply resolve s).Steady := by
  cases event with
  | input input => exact h.input input
  | turn turn => exact h.chain (turn_quiet turn s)

/-- The four things hold of every reachable session. -/
theorem Reachable.steady {s : Session} (h : s.Reachable) : s.Steady := by
  obtain ⟨registry, canvas, store, files, steps⟩ := h
  -- The induction is on the events since the start, and each may come with a resolver of its own.
  induction steps with
  | refl => exact steady_start registry canvas store files
  | tail _ step ih =>
    cases step with
    | event resolve event => exact ih.event resolve event

/-! ## Passes between events -/

/-- A pass that finds every picture known leaves the cache as it is. -/
theorem cache_rerun_of_known {s : Session} (known : ∀ url ∈ s.wanted, s.cache.knows url = true)
    (showHints : Bool) : (s.rerun showHints).cache = s.cache :=
  cache_runPass_of_known known s.viewport (s.generation + 1)

/-- A change of the view leaves the cache of a steady session alone, for its pass finds every
picture known. -/
theorem Steady.cache_setViewport {s : Session} (h : s.Steady) (view : Viewport) :
    (s.setViewport view).cache = s.cache :=
  cache_rerun_of_known (s := { s with viewport := view }) h.known false

/-- Where every picture wanted is known, dealing with an arrival is receiving it and letting
go of it, for the pass in between asks for nothing. -/
theorem cache_handleArrival {s : Session} (known : ∀ url ∈ s.wanted, s.cache.knows url = true)
    {key : String} {rest : List String} (queue : s.cache.queued = key :: rest) :
    s.handleArrival.cache = s.cache.receive.2.letGo key := by
  have received := Cache.sameTables_receive s.cache
  have passed : (rerun { s with cache := s.cache.receive.2 } true).cache = s.cache.receive.2 :=
    cache_rerun_of_known (s := { s with cache := s.cache.receive.2 })
      (fun url wanted => (received.knows_eq url).trans (known url wanted)) true
  rw [handleArrival_of_queued queue]
  show (rerun { s with cache := s.cache.receive.2 } true).cache.letGo key = _
  rw [passed]

/-- Dealing with an arrival leaves the tables alone. -/
theorem Steady.sameTables_handleArrival {s : Session} (h : s.Steady) :
    Cache.SameTables s.cache s.handleArrival.cache := by
  cases queue : s.cache.queued with
  | nil =>
    rw [handleArrival_of_empty queue]
    exact .refl s.cache
  | cons key rest =>
    rw [cache_handleArrival h.known queue]
    exact (Cache.sameTables_receive s.cache).trans (Cache.sameTables_letGo _ key)

/-! ## No redraw is lost -/

/-- At rest, the pictures that the script wants all have entries. -/
theorem Steady.entered_of_idle {s : Session} (h : s.Steady) (idle : s.Idle) :
    ∀ url ∈ s.wanted, (s.cache.get? url).isSome = true := by
  intro url wanted
  have known := h.known url wanted
  -- Known is having an entry or being in flight, and nothing is in flight.
  have landed : s.cache.isPending url = false := by rw [Cache.isPending, idle.1, List.any_nil]
  rwa [Cache.knows, landed, Bool.or_false] at known

/-- The hints shown last by a session at rest, if it ever showed any, read like those of a
pass over its script and its cache now. None of them says that a picture is on its way. -/
theorem lastShown_of_idle {s : Session} (h : s.Reachable) (idle : s.Idle) {hints : List String}
    (last : s.shown.getLast? = some hints) :
    hints.map readAsCached = (s.pass (s.generation + 1)).report.hints.map readAsCached ∧
      downloadingHint ∉ hints := by
  have same : hints.map readAsCached = (s.pass (s.generation + 1)).report.hints.map readAsCached :=
    (h.steady.upToDate idle.2).shown hints last
  have arrived : downloadingHint ∉ (s.pass (s.generation + 1)).report.hints :=
    downloadingHint_not_mem_runPass (h.steady.entered_of_idle idle) s.viewport _
  -- No other hint reads like that of a picture on its way.
  refine ⟨same, fun member => arrived ?_⟩
  have read : readAsCached downloadingHint ∈ hints.map readAsCached := List.mem_map_of_mem member
  rw [same, (readAsCached_eq_downloadingHint_iff _).mpr rfl] at read
  obtain ⟨hint, found, reads⟩ := List.mem_map.mp read
  rwa [(readAsCached_eq_downloadingHint_iff hint).mp reads] at found

/-- A picture arrived, was drawn and shown, and was relabelled only then. -/
theorem lastShown_of_relabelled :
    let s := run (fun url => .ok ⟨url, 4, 3⟩) (start builtinRegistry (640, 480) none ⟨[], []⟩)
      [.input (.setScript "reference a.png"), .turn .settle, .turn (.relabel "a.png")]
    s.Idle ∧ s.shown.getLast? = some ["downloaded, 4×3"] ∧
      (s.pass (s.generation + 1)).report.hints = ["cached, 4×3"] ∧
      ["downloaded, 4×3"].map readAsCached
        = (s.pass (s.generation + 1)).report.hints.map readAsCached ∧
      downloadingHint ∉ ["downloaded, 4×3"] := by
  intro s
  have idle : s.Idle := ⟨by decide +kernel, by decide +kernel⟩
  have last : s.shown.getLast? = some ["downloaded, 4×3"] := by decide +kernel
  have reachable : s.Reachable := (reachable_start _ _ _ _).run _ _
  exact ⟨idle, last, by decide +kernel, lastShown_of_idle reachable idle last⟩

end Linework.Session
