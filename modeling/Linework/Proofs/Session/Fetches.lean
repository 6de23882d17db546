import Linework.Proofs.Session.Steady

/-!
# `Linework.Proofs.Session.Fetches`: when fetches start

Every pass asks for the pictures of its lines, those after a change of the view or an
arrival too. But between events the cache knows every picture that the script wants
(`Steady.known`), so these passes ask in vain. What is left are the inputs that name a
picture or bring a script.

* `Steady.startsNothing_event`: any other event starts no fetch.
* `Steady.knows_event`: no event makes the cache forget a key.
* `fetches_start_on_edits`: both, for every reachable session.
-/

set_option autoImplicit false

namespace Linework.Session

open Relation (ReflTransGen)

/-- Turns start no fetch: a cache left to itself starts none, and the pass for an arrival asks for
pictures that are known. -/
theorem Steady.startsNothing_chain {resolve : Resolver} {s t : Session} (h : s.Steady)
    (steps : ReflTransGen (Quiet resolve) s t) : Cache.StartsNothing s.cache t.cache := by
  induction steps with
  | refl => exact .refl s.cache
  | tail before step ih =>
    cases step with
    | drift drift => exact ih.trans drift.startsNothing
    | arrival => exact ih.trans (h.chain before).sameTables_handleArrival.startsNothing

/-- Turns make the cache know no more and no less. -/
theorem Steady.knows_chain {resolve : Resolver} {s t : Session} (h : s.Steady)
    (steps : ReflTransGen (Quiet resolve) s t) (key : String) :
    t.cache.knows key = s.cache.knows key := by
  -- Each step starts from a session that is steady by the steps before it.
  induction steps with
  | refl => rfl
  | tail before step ih =>
    cases step with
    | drift drift => exact ((drift.ahead (h.chain before).kept).knows_eq key).trans ih
    | arrival => exact ((h.chain before).sameTables_handleArrival.knows_eq key).trans ih

/-- An event that names no picture and brings no script starts no fetch. -/
theorem Steady.startsNothing_event {s : Session} (h : s.Steady) (resolve : Resolver) {event : Event}
    (other : event.mayFetch = false) : Cache.StartsNothing s.cache (event.apply resolve s).cache := by
  have viewed (view : Viewport) : Cache.StartsNothing s.cache (s.setViewport view).cache := by
    rw [h.cache_setViewport view]
    exact .refl s.cache
  -- The inputs that are left are changes of the view, whose pass finds every picture known, and
  -- of the files.
  match event, other with
  | .turn turn, _ => exact h.startsNothing_chain (turn_quiet turn s)
  | .input (.panBy dx dy), _ => exact viewed _
  | .input (.zoomBy delta pinch), _ => exact viewed _
  | .input .resetZoom, _ => exact viewed _
  | .input .recenter, _ => exact viewed _
  | .input (.setViewport view), _ => exact viewed view
  | .input (.setFiles files), _ => exact .refl s.cache

/-- Nothing that happens to a session makes its cache forget a key. -/
theorem Steady.knows_event {s : Session} (h : s.Steady) (resolve : Resolver) (event : Event)
    {key : String} (known : s.cache.knows key = true) :
    (event.apply resolve s).cache.knows key = true := by
  have edited (t : Session) (same : t.cache.knows key = true) (text : String) :
      (t.setScript text).cache.knows key = true := by
    rw [Session.setScript, Session.cache_rerun, Cache.knows_requestAll]
    show (t.cache.knows key || _) = true
    rw [same, Bool.true_or]
  have viewed (view : Viewport) : (s.setViewport view).cache.knows key = true := by
    rw [h.cache_setViewport view, known]
  have asked (name path : String) : (s.cache.request name path).knows key = true := by
    rw [Cache.knows_request, known, Bool.true_or]
  cases event with
  | turn turn =>
    show (turn.apply resolve s).cache.knows key = true
    rw [← known]
    exact h.knows_chain (turn_quiet turn s) key
  | input input =>
    cases input with
    | setScript text => exact edited s known _
    | restore =>
      show s.restore.2.cache.knows key = true
      rw [restore]
      split
      · exact edited s known _
      · exact known
      · exact known
    | loadReference name path => exact asked name path
    | importReference name path => exact edited _ (asked name path) _
    | panBy dx dy => exact viewed _
    | zoomBy delta pinch => exact viewed _
    | resetZoom => exact viewed _
    | recenter => exact viewed _
    | setViewport view => exact viewed _
    | setFiles files => exact known

/-- Only edits and imports start fetches: whatever else happens to a session leaves the
number of fetches ever started as it is and puts no key in flight. For a picture that its
script wants is known, and will be whatever happens. -/
theorem fetches_start_on_edits {s : Session} (h : s.Reachable) :
    (∀ (resolve : Resolver) (event : Event), event.mayFetch = false →
      (event.apply resolve s).cache.calls = s.cache.calls ∧
        ∀ key, (event.apply resolve s).cache.isPending key = true →
          s.cache.isPending key = true) ∧
    ∀ later, ReflTransGen Step s later → ∀ url ∈ s.wanted, later.cache.knows url = true := by
  refine ⟨fun resolve event other => ?_, fun later steps url wanted => ?_⟩
  · have nothing := h.steady.startsNothing_event resolve other
    exact ⟨nothing.calls, nothing.pending⟩
  · -- The script may change on the way, so what is carried along is that the key is known.
    have both : later.Steady ∧ later.cache.knows url = true := by
      induction steps with
      | refl => exact ⟨h.steady, h.steady.known url wanted⟩
      | tail _ step ih =>
        cases step with
        | event resolve event =>
          exact ⟨ih.1.event resolve event, ih.1.knows_event resolve event ih.2⟩
    exact both.2

/-- A picture wanted is fetched by the edit that wants it, and by nothing after that. -/
theorem fetches_start_on_setScript :
    let s := run (fun url => .ok ⟨url, 4, 3⟩) (start builtinRegistry (640, 480) none ⟨[], []⟩)
      [.input (.setScript "reference a.png")]
    s.cache.calls = 1 ∧ s.wanted = ["a.png"] ∧
    (∀ (resolve : Resolver) (event : Event), event.mayFetch = false →
      (event.apply resolve s).cache.calls = s.cache.calls ∧
        ∀ key, (event.apply resolve s).cache.isPending key = true →
          s.cache.isPending key = true) ∧
    ∀ later, ReflTransGen Step s later → ∀ url ∈ s.wanted, later.cache.knows url = true := by
  intro s
  have reachable : s.Reachable := (reachable_start _ _ _ _).run _ _
  exact ⟨by decide +kernel, by decide +kernel, fetches_start_on_edits reachable⟩

end Linework.Session
