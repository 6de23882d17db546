import Linework.Canvas.DrawOp
import Linework.Pass.Run
import Linework.Storage.Document

/-!
# `Linework.Session`: a sketch being edited

A session holds the script, the viewport and the pictures, and everything it has
drawn and shown. Every edit, every change of the view and every arrival of a
picture is one pass over the script as it is then. Hints are shown after edits and
arrivals; a change of the view leaves them as they are.

A session may have a store, a path where each edit is saved. An edit whose saving
fails is an edit all the same.
-/

set_option autoImplicit false

namespace Linework

/-- A sketch being edited. -/
structure Session where
  registry : Registry
  /-- Width and height of the canvas. -/
  canvas : UInt32 × UInt32
  script : String
  viewport : Viewport
  /-- How many passes were run. -/
  generation : Nat
  cache : Cache
  /-- All drawing operations so far. -/
  recording : Recording
  /-- The hint lists shown so far, oldest first. -/
  shown : List (List String)
  /-- The account of the latest pass. -/
  lastReport : Option Report
  /-- Where edits are saved. -/
  store : Option String
  /-- The files around the session. -/
  files : FileSystem

namespace Session

/-- A session in which nothing happened yet, the origin in the middle of the
canvas. -/
def start (registry : Registry) (canvas : UInt32 × UInt32) (store : Option String)
    (files : FileSystem) : Session where
  registry := registry
  canvas := canvas
  script := ""
  viewport := .centered canvas.1 canvas.2
  generation := 0
  cache := .empty
  recording := .empty
  shown := []
  lastReport := none
  store := store
  files := files

/-- A new session over the same store. Addresses that are held stay so. -/
def restart (s : Session) : Session :=
  { start s.registry s.canvas s.store s.files with
    -- What is held belongs to the addresses and not to the session.
    cache := { Cache.empty with held := s.cache.held } }

/-- Runs a pass over the script as it is now, and shows its hints if asked to. -/
def rerun (s : Session) (showHints : Bool) : Session :=
  let pass := runPass s.registry s.viewport s.script s.cache (s.generation + 1)
  { s with
    generation := s.generation + 1
    cache := pass.cache
    recording := s.recording.append pass.ops
    shown := if showHints then s.shown ++ [pass.report.hints] else s.shown
    lastReport := some pass.report }

/-! ## Edits -/

/-- The files after a script was saved to the session's store. -/
def filesAfterSaving (s : Session) (text : String) : FileSystem :=
  match s.store with
  | some path => ((Document.save path text).run s.files).2
  | none => s.files

/-- Replaces the script, saves it, and runs it. -/
def setScript (s : Session) (text : String) : Session :=
  rerun { s with script := text, files := s.filesAfterSaving text } true

/-- What the store holds, if there is a store and something was saved. -/
def stored (s : Session) : Except Failure (Option String) :=
  match s.store with
  | some path => ((Document.load path).run s.files).1
  | none => .ok none

/-- Makes the saved script the script of the session, as an edit. Without a saved
script nothing happens. -/
def restore (s : Session) : Except Failure Bool × Session :=
  match s.stored with
  | .ok (some text) => (.ok true, s.setScript text)
  | .ok none => (.ok false, s)
  | .error failure => (.error failure, s)

/-- Whether a picture's key may still be requested. -/
def canRequest (s : Session) (key : String) : Bool := !s.cache.knows key

/-- Starts to load a picture from a file under a name, unless the name is taken. -/
def loadReference (s : Session) (name path : String) : Session :=
  { s with cache := s.cache.request name path }

/-- Starts to load a picture from a file and puts a line for it on top of the
script. -/
def importReference (s : Session) (name path : String) : Session :=
  (s.loadReference name path).setScript (prependReference s.script name)

/-! ## The view -/

/-- Changes the viewport and draws the script anew. -/
def setViewport (s : Session) (view : Viewport) : Session :=
  rerun { s with viewport := view } false

/-- Moves the origin. -/
def panBy (s : Session) (dx dy : Float) : Session :=
  s.setViewport (s.viewport.panBy dx dy)

/-- Zooms by a wheel turn. -/
def zoomBy (s : Session) (delta : Float) (pinch : Bool) : Session :=
  s.setViewport (s.viewport.zoomBy delta pinch)

/-- Back to nothing scaled. -/
def resetZoom (s : Session) : Session :=
  s.setViewport s.viewport.resetZoom

/-- Puts the origin back in the middle of the canvas and keeps the zoom. -/
def recenter (s : Session) : Session :=
  s.setViewport (s.viewport.recenter (.centered s.canvas.1 s.canvas.2))

/-! ## Arrivals -/

/-- Deals with the oldest arrival, if there is one: runs the script again, and only
then lets the arrival go, so that the pass still sees the picture as fresh. -/
def handleArrival (s : Session) : Session :=
  match s.cache.receive with
  | (none, _) => s
  | (some key, cache) =>
    let after := rerun { s with cache := cache } true
    { after with cache := after.cache.letGo key }

/-- Deals with the oldest arrivals, as many as given. -/
def handleArrivals : Nat → Session → Session
  | 0, s => s
  | count + 1, s => handleArrivals count s.handleArrival

/-- Deals with every arrival queued now. Running the script queues none. -/
def processArrivals (s : Session) : Session :=
  handleArrivals s.cache.queued.length s

/-- Lets everything happen to the pictures that can. -/
def pump (resolve : Resolver) (s : Session) : Session :=
  { s with cache := s.cache.pump resolve }

/-- Ends one fetch. -/
def finish (resolve : Resolver) (s : Session) (key : String) : Session :=
  match s.cache.inFlight.find? fun f => f.key = key with
  | some f => { s with cache := s.cache.finish key (resolve f.url) }
  | none => s

/-- Keeps back the fetches of an address requested from now on. -/
def hold (s : Session) (url : String) : Session :=
  { s with cache := s.cache.hold url }

/-- Releases an address. -/
def release (resolve : Resolver) (s : Session) (url : String) : Session :=
  { s with cache := s.cache.release resolve url }

/-- Deals with arrivals until nothing is in flight or nothing more can arrive, and
counts them. Whether anything is in flight is asked before the queue is emptied:
an arrival is queued before its fetch leaves, so an idle cache has no arrival that
is still to come. -/
def settleRounds (resolve : Resolver) : Nat → Session → Nat × Session
  | 0, s => (0, s)
  | rounds + 1, s =>
    let drained := s.processArrivals
    let handled := s.cache.queued.length
    -- The flag is that of the session before its queue was emptied.
    if s.cache.inFlight.isEmpty then (handled, drained)
    else
      let pumped := drained.pump resolve
      -- All that is left in flight is kept back, so waiting any longer brings nothing.
      if pumped.cache.queued.isEmpty then (handled, pumped)
      else
        let (more, settled) := settleRounds resolve rounds pumped.handleArrival
        (handled + 1 + more, settled)

/-- Waits for the pictures. Every round but the last ends a fetch, and running the
script starts none, so there are at most as many rounds as fetches, and one. -/
def settle (resolve : Resolver) (s : Session) : Nat × Session :=
  settleRounds resolve (s.cache.inFlight.length + 1) s

end Session

end Linework
