import Linework.Proofs.Reference.Drift
import Linework.Session.Basic

/-!
# `Linework.Proofs.Session.Events`: what can happen to a session

Two kinds of things happen to a session. An `Input` comes from outside: an edit, a
change of the view, or a change to the files around. A `Turn` is taken by the
pictures on their way and by those who deal with their arrivals. Nothing orders the
two, so a history is a list of events, each of the one kind or the other, and a
*schedule* of inputs is any history with these inputs.

* `run` is a session after a history, with one resolver for all of it.
* `Step` is one event with any resolver, and `Reachable` closes over it: whatever
  can be said of a reachable session holds whenever and however fetches end.

The long turns are made of short ones. `Quiet` has just two kinds, a step of a cache
that is left to itself and the oldest arrival dealt with, and `turn_quiet` resolves
every turn into a chain of these. So what is to be shown of all turns has to be shown of
two steps.
-/

set_option autoImplicit false

namespace Linework.Session

open Relation (ReflTransGen)

/-! ## Inputs and turns -/

/-- What comes to a session from outside. -/
inductive Input where
  | setScript (text : String)
  | restore
  | loadReference (name path : String)
  | importReference (name path : String)
  | panBy (dx dy : Float)
  | zoomBy (delta : Float) (pinch : Bool)
  | resetZoom
  | recenter
  | setViewport (view : Viewport)
  /-- Others change the files around the session. -/
  | setFiles (files : FileSystem)

namespace Input

/-- The session after an input. -/
def apply : Input → Session → Session
  | setScript text, s => s.setScript text
  | restore, s => s.restore.2
  | loadReference name path, s => s.loadReference name path
  | importReference name path, s => s.importReference name path
  | panBy dx dy, s => s.panBy dx dy
  | zoomBy delta pinch, s => s.zoomBy delta pinch
  | resetZoom, s => s.resetZoom
  | recenter, s => s.recenter
  | setViewport view, s => s.setViewport view
  | setFiles files, s => { s with files := files }

/-- Whether an input may start a fetch: it names a picture or brings a script. -/
def mayFetch : Input → Bool
  | setScript _ => true
  | restore => true
  | loadReference _ _ => true
  | importReference _ _ => true
  | _ => false

end Input

/-- What happens to the pictures, and with their arrivals. -/
inductive Turn where
  | finish (key : String)
  | relabel (key : String)
  | hold (url : String)
  /-- The fetch of a key is kept back until its address is released. -/
  | keepBack (key : String)
  | release (url : String)
  | pump
  | handleArrival
  | processArrivals
  | settle
  /-- Settling is given up after so many rounds. -/
  | settleWithin (rounds : Nat)

/-- The session after a turn. -/
def Turn.apply (resolve : Resolver) : Turn → Session → Session
  | finish key, s => s.finish resolve key
  | relabel key, s => { s with cache := s.cache.relabelKey key }
  | hold url, s => s.hold url
  | keepBack key, s => { s with cache := s.cache.keepBack key }
  | release url, s => s.release resolve url
  | pump, s => s.pump resolve
  | handleArrival, s => s.handleArrival
  | processArrivals, s => s.processArrivals
  | settle, s => (s.settle resolve).2
  | settleWithin rounds, s => (s.settleRounds resolve rounds).2

/-! ## Histories -/

/-- One thing that happens to a session. -/
inductive Event where
  | input (input : Input)
  | turn (turn : Turn)

namespace Event

/-- The session after an event. -/
def apply (resolve : Resolver) : Event → Session → Session
  | input i, s => i.apply s
  | turn t, s => t.apply resolve s

/-- The input of an event, if it is one. -/
def input? : Event → Option Input
  | input i => some i
  | turn _ => none

/-- Whether an event may start a fetch. -/
def mayFetch : Event → Bool
  | input i => i.mayFetch
  | turn _ => false

end Event

/-- The session after a history. -/
def run (resolve : Resolver) (s : Session) (events : List Event) : Session :=
  events.foldl (fun s event => event.apply resolve s) s

/-- The inputs of a history, in order. -/
def inputs (events : List Event) : List Input := events.filterMap Event.input?

/-- No fetch is in flight and no arrival is queued. -/
def Idle (s : Session) : Prop := s.cache.inFlight = [] ∧ s.cache.queued = []

/-- One event, wherever the addresses lead. -/
inductive Step : Session → Session → Prop
  | event (resolve : Resolver) (event : Event) (s : Session) : Step s (event.apply resolve s)

/-- A session that events lead to from one in which nothing happened. -/
def Reachable (s : Session) : Prop :=
  ∃ registry canvas store files, ReflTransGen Step (start registry canvas store files) s

/-- What one event leads to from a reachable session is reachable. -/
theorem Reachable.tail {s t : Session} (h : s.Reachable) (step : Step s t) : t.Reachable := by
  obtain ⟨registry, canvas, store, files, steps⟩ := h
  exact ⟨registry, canvas, store, files, steps.tail step⟩

/-- A session in which nothing happened yet is reachable, by no events. -/
theorem reachable_start (registry : Registry) (canvas : UInt32 × UInt32) (store : Option String)
    (files : FileSystem) : (start registry canvas store files).Reachable :=
  ⟨registry, canvas, store, files, .refl⟩

/-- Histories lead to reachable sessions. -/
theorem Reachable.run {s : Session} (h : s.Reachable) (resolve : Resolver) (events : List Event) :
    (run resolve s events).Reachable := by
  induction events generalizing s with
  | nil => exact h
  | cons event rest ih => exact ih (h.tail (.event resolve event s))

/-! ## What turns are made of -/

/-- With nothing queued there is no arrival to deal with. -/
theorem handleArrival_of_empty {s : Session} (h : s.cache.queued = []) : s.handleArrival = s := by
  simp [handleArrival, Cache.receive, h]

/-- An arrival is dealt with by a pass between its receipt and its release. -/
theorem handleArrival_of_queued {s : Session} {key : String} {rest : List String}
    (h : s.cache.queued = key :: rest) :
    s.handleArrival
      = let after := rerun { s with cache := s.cache.receive.2 } true
        { after with cache := after.cache.letGo key } := by
  simp [handleArrival, Cache.receive, h]

/-- A short turn: the cache drifts, or the oldest arrival is dealt with. -/
inductive Quiet (resolve : Resolver) : Session → Session → Prop
  | drift {s : Session} {cache : Cache} (h : Cache.Drift resolve s.cache cache) :
      Quiet resolve s { s with cache := cache }
  | arrival (s : Session) : Quiet resolve s s.handleArrival

variable {resolve : Resolver}

/-- What happens to the cache by itself happens to the session, which does not notice. -/
theorem quiet_of_drifts {s : Session} {cache : Cache}
    (h : ReflTransGen (Cache.Drift resolve) s.cache cache) :
    ReflTransGen (Quiet resolve) s { s with cache := cache } := by
  -- The session around the cache is the same all the way.
  induction h with
  | refl => exact .refl
  | tail _ last ih => exact ih.tail (.drift last)

/-- A fetch that ends is one step of the cache, or none if the key is not in flight. -/
theorem finish_quiet (s : Session) (key : String) :
    ReflTransGen (Quiet resolve) s (s.finish resolve key) := by
  rw [finish]
  cases found : s.cache.inFlight.find? fun f => f.key = key with
  | none => exact .refl
  | some f =>
    have named : f.key = key := by simpa using List.find?_some found
    -- The fetch found goes by this key, so ending the key is ending the fetch.
    have drift : Cache.Drift resolve s.cache (s.cache.finish f.key (resolve f.url)) :=
      .finish (List.mem_of_find?_eq_some found)
    rw [named] at drift
    exact .single (.drift drift)

/-- A pump is a chain of steps of the cache. -/
theorem pump_quiet (s : Session) : ReflTransGen (Quiet resolve) s (s.pump resolve) :=
  quiet_of_drifts s.cache.pump_drifts

/-- Arrivals are dealt with one after another. -/
theorem handleArrivals_quiet (count : Nat) (s : Session) :
    ReflTransGen (Quiet resolve) s (handleArrivals count s) := by
  induction count generalizing s with
  | zero => exact .refl
  | succ count ih => exact .head (.arrival s) (ih _)

/-- Settling is made of arrivals dealt with and of pumps, however many rounds it may take. -/
theorem settleRounds_quiet (rounds : Nat) (s : Session) :
    ReflTransGen (Quiet resolve) s (s.settleRounds resolve rounds).2 := by
  induction rounds generalizing s with
  | zero => exact .refl
  | succ rounds ih =>
    -- A round drains the queue, lets the pictures move, and deals with one arrival.
    have drained : ReflTransGen (Quiet resolve) s s.processArrivals := handleArrivals_quiet _ s
    rw [settleRounds]
    split
    · exact drained
    · have pumped := drained.trans s.processArrivals.pump_quiet
      dsimp only
      split
      · exact pumped
      · exact (pumped.tail (.arrival _)).trans (ih _)

/-- Every turn is a chain of short ones. -/
theorem turn_quiet (turn : Turn) (s : Session) :
    ReflTransGen (Quiet resolve) s (turn.apply resolve s) := by
  -- Only the long turns have a chain to be gone through.
  cases turn with
  | finish key => exact s.finish_quiet key
  | relabel key => exact .single (.drift (.relabel s.cache key))
  | hold url => exact .single (.drift (.hold s.cache url))
  | keepBack key => exact .single (.drift (.keepBack s.cache key))
  | release url => exact quiet_of_drifts (s.cache.release_drifts url)
  | pump => exact s.pump_quiet
  | handleArrival => exact .single (.arrival s)
  | processArrivals => exact handleArrivals_quiet _ s
  | settle => exact settleRounds_quiet _ s
  | settleWithin rounds => exact settleRounds_quiet rounds s

end Linework.Session
