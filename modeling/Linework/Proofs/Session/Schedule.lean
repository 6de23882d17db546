import Linework.Proofs.Session.Steady

/-!
# `Linework.Proofs.Session.Schedule`: the schedule of fetches does not matter

A history mixes inputs with turns. Leave the turns out and no fetch ever ends: this is
the history with the latest schedule there is, and any other schedule of the same inputs
stays *ahead* of it (`Ahead`). Both sessions have the same script, view and files, the one
cache is ahead of the other, and each fetch that ended in the one is a pass that it ran or
an arrival that it has queued.

* `Ahead.input`: an input given to both keeps the one ahead, for a pass asks both caches for
  the same pictures.
* `Ahead.drift`, `Ahead.handleArrival`: a short turn keeps the one ahead that takes it.
* `Ahead.run`: a history leads ahead of its inputs.

A session at rest is in all that shows what the one behind it destines it to be, so two
schedules of the same inputs that both come to rest end alike (`ends_alike_of_inputs_eq`).
-/

set_option autoImplicit false

namespace Linework.Session

open Relation (ReflTransGen)

/-- The session `s` has got what came to `base` and may have taken turns besides. -/
structure Ahead (resolve : Resolver) (base s : Session) : Prop where
  registry : s.registry = base.registry
  canvas : s.canvas = base.canvas
  script : s.script = base.script
  viewport : s.viewport = base.viewport
  store : s.store = base.store
  files : s.files = base.files
  cache : base.cache.Ahead resolve s.cache
  /-- Each entry that `base` lacks is an arrival queued, or a pass. -/
  passes : s.generation + s.cache.queued.length + base.cache.entries.length
    = base.generation + base.cache.queued.length + s.cache.entries.length

variable {resolve : Resolver} {base s : Session}

/-- A session is ahead of itself. -/
theorem Ahead.refl (s : Session) : Ahead resolve s s :=
  ⟨rfl, rfl, rfl, rfl, rfl, rfl, .refl s.cache, rfl⟩

/-- Where only the caches change, they have to stay in step. -/
theorem Ahead.of_cache (h : Ahead resolve base s) {b c : Cache} (cache : b.Ahead resolve c)
    (passes : s.generation + c.queued.length + b.entries.length
      = base.generation + b.queued.length + c.entries.length) :
    Ahead resolve { base with cache := b } { s with cache := c } :=
  ⟨h.registry, h.canvas, h.script, h.viewport, h.store, h.files, cache, passes⟩

/-! ## Inputs -/

/-- A pass of both asks for the same pictures. -/
theorem Ahead.rerun (h : Ahead resolve base s) (showHints : Bool) :
    Ahead resolve (base.rerun showHints) (s.rerun showHints) where
  registry := h.registry
  canvas := h.canvas
  script := h.script
  viewport := h.viewport
  store := h.store
  files := h.files
  cache := by
    have same : s.wanted = base.wanted := by rw [wanted, wanted, h.registry, h.script]
    rw [cache_rerun, cache_rerun, same]
    exact h.cache.requestAll base.wanted
  passes := by
    rw [cache_rerun, cache_rerun, Cache.queued_requestAll, Cache.queued_requestAll,
      Cache.entries_requestAll, Cache.entries_requestAll]
    have passes := h.passes
    show s.generation + 1 + s.cache.queued.length + base.cache.entries.length
      = base.generation + 1 + base.cache.queued.length + s.cache.entries.length
    omega

/-- The same edit, saved to the same files, keeps the one ahead. -/
theorem Ahead.setScript (h : Ahead resolve base s) (text : String) :
    Ahead resolve (base.setScript text) (s.setScript text) := by
  have saved : s.filesAfterSaving text = base.filesAfterSaving text := by
    rw [filesAfterSaving, filesAfterSaving, h.store, h.files]
  have replaced : Ahead resolve { base with script := text, files := base.filesAfterSaving text }
      { s with script := text, files := s.filesAfterSaving text } :=
    ⟨h.registry, h.canvas, rfl, h.viewport, h.store, saved, h.cache, h.passes⟩
  exact replaced.rerun true

/-- The same view keeps the one ahead. -/
theorem Ahead.setViewport (h : Ahead resolve base s) (view : Viewport) :
    Ahead resolve (base.setViewport view) (s.setViewport view) := by
  have viewed : Ahead resolve { base with viewport := view } { s with viewport := view } :=
    ⟨h.registry, h.canvas, h.script, rfl, h.store, h.files, h.cache, h.passes⟩
  exact viewed.rerun false

/-- The same picture asked for keeps the one ahead, whether it was known or not: what one of the
two caches knows the other knows. -/
theorem Ahead.loadReference (h : Ahead resolve base s) (name path : String) :
    Ahead resolve (base.loadReference name path) (s.loadReference name path) := by
  refine h.of_cache (h.cache.request name path) ?_
  rw [Cache.queued_request, Cache.queued_request, Cache.entries_request, Cache.entries_request]
  exact h.passes

/-- An input given to both keeps the one ahead of the other. -/
theorem Ahead.input (h : Ahead resolve base s) (input : Input) :
    Ahead resolve (input.apply base) (input.apply s) := by
  cases input with
  | setScript text => exact h.setScript text
  | restore =>
    have stored : s.stored = base.stored := by rw [stored, stored, h.store, h.files]
    show Ahead resolve base.restore.2 s.restore.2
    rw [restore, restore, stored]
    split
    · exact h.setScript _
    · exact h
    · exact h
  | loadReference name path => exact h.loadReference name path
  | importReference name path =>
    show Ahead resolve (base.importReference name path) (s.importReference name path)
    rw [importReference, importReference, h.script]
    exact (h.loadReference name path).setScript _
  | panBy dx dy =>
    show Ahead resolve (base.panBy dx dy) (s.panBy dx dy)
    rw [panBy, panBy, h.viewport]
    exact h.setViewport _
  | zoomBy delta pinch =>
    show Ahead resolve (base.zoomBy delta pinch) (s.zoomBy delta pinch)
    rw [zoomBy, zoomBy, h.viewport]
    exact h.setViewport _
  | resetZoom =>
    show Ahead resolve base.resetZoom s.resetZoom
    rw [resetZoom, resetZoom, h.viewport]
    exact h.setViewport _
  | recenter =>
    show Ahead resolve base.recenter s.recenter
    rw [recenter, recenter, h.viewport, h.canvas]
    exact h.setViewport _
  | setViewport view => exact h.setViewport view
  | setFiles files =>
    exact ⟨h.registry, h.canvas, h.script, h.viewport, h.store, rfl, h.cache, h.passes⟩

/-! ## Turns -/

/-- Drifting queues an arrival for each entry that it makes. -/
theorem Ahead.drift (h : Ahead resolve base s) (steady : s.Steady) {cache : Cache}
    (drift : Cache.Drift resolve s.cache cache) :
    Ahead resolve base { s with cache := cache } := by
  have made := drift.queued_eq steady.listening
  have passes := h.passes
  exact h.of_cache (h.cache.trans (drift.ahead steady.kept)) (by omega)

/-- Dealing with an arrival makes it a pass. -/
theorem Ahead.handleArrival (h : Ahead resolve base s) (steady : s.Steady) :
    Ahead resolve base s.handleArrival := by
  cases queue : s.cache.queued with
  | nil => rwa [handleArrival_of_empty queue]
  | cons key rest =>
    have same := steady.sameTables_handleArrival
    have passes := h.passes
    rw [handleArrival_of_queued queue] at same ⊢
    refine ⟨h.registry, h.canvas, h.script, h.viewport, h.store, h.files, h.cache.trans same.ahead, ?_⟩
    -- One arrival less is queued, and one pass more was run.
    have left : s.cache.receive.2.queued = rest := by rw [Cache.receive, queue]
    rw [same.entries, Cache.queued_letGo, cache_rerun, Cache.queued_requestAll, left]
    rw [queue, List.length_cons] at passes
    show s.generation + 1 + rest.length + base.cache.entries.length
      = base.generation + base.cache.queued.length + s.cache.entries.length
    omega

/-- Turns of the session that is ahead keep it ahead, for the other one stays where it is. -/
theorem Ahead.chain {t : Session} (h : Ahead resolve base s) (steady : s.Steady)
    (steps : ReflTransGen (Quiet resolve) s t) : Ahead resolve base t := by
  induction steps with
  | refl => exact h
  | tail before step ih =>
    cases step with
    | drift drift => exact ih.drift (steady.chain before) drift
    | arrival => exact ih.handleArrival (steady.chain before)

/-! ## Histories -/

/-- After a history the session is ahead of what its inputs alone make of `base`. -/
theorem Ahead.run (h : Ahead resolve base s) (steady : s.Steady) (events : List Event) :
    Ahead resolve ((inputs events).foldl (fun s input => input.apply s) base)
      (run resolve s events) := by
  -- An input comes to both, and a turn is taken by the one only. So the two grow apart along the
  -- history.
  induction events generalizing base s with
  | nil => exact h
  | cons event rest ih =>
    have later : (event.apply resolve s).Steady := steady.event resolve event
    cases event with
    | input input => exact ih (h.input input) later
    | turn turn => exact ih (h.chain steady (turn_quiet turn s)) later

/-! ## At rest -/

/-- At rest every fetch that `base` has in flight has become a pass. -/
theorem Ahead.generation_of_idle (h : Ahead resolve base s) (idle : s.Idle) :
    s.generation + base.cache.entries.length
      = base.generation + base.cache.queued.length + base.cache.keys.length := by
  have passes := h.passes
  rw [idle.2, List.length_nil, h.cache.length_entries_of_landed idle.1] at passes
  exact passes

/-- Two sessions ahead of the same one are both at rest with the same pictures. -/
theorem Ahead.alike_of_idle {t u : Session} (ht : Ahead resolve base t) (hu : Ahead resolve base u)
    (rest : t.Idle) (rest' : u.Idle) (key : String) :
    t.cache.outcome? key = u.cache.outcome? key := by
  rw [ht.cache.outcome?_of_landed rest.1, hu.cache.outcome?_of_landed rest'.1]

/-- Two schedules of the same inputs, under the same resolver, end alike if both come to
rest: with the same script and viewport, after as many passes, with the same pictures and
failures under the same keys, with the same on the canvas, and with last reports that differ in
the freshness of pictures at most. -/
theorem ends_alike_of_inputs_eq {s : Session} (h : s.Reachable) (resolve : Resolver)
    {events events' : List Event} (same : inputs events = inputs events')
    (rest : (run resolve s events).Idle) (rest' : (run resolve s events').Idle) :
    let t := run resolve s events
    let u := run resolve s events'
    t.script = u.script ∧ t.viewport = u.viewport ∧ t.generation = u.generation ∧
      (∀ key, t.cache.outcome? key = u.cache.outcome? key) ∧
      t.recording.currentFrame = u.recording.currentFrame ∧
      t.lastReport.map (Report.read readAsCached)
        = u.lastReport.map (Report.read readAsCached) := by
  intro t u
  -- Both are ahead of the session that got the inputs and took no turn.
  have ahead : Ahead resolve ((inputs events).foldl (fun s input => input.apply s) s) t :=
    (Ahead.refl s).run h.steady events
  have ahead' : Ahead resolve ((inputs events).foldl (fun s input => input.apply s) s) u :=
    same ▸ (Ahead.refl s).run h.steady events'
  have upToDate : t.UpToDate := (h.run resolve events).steady.upToDate rest.2
  have upToDate' : u.UpToDate := (h.run resolve events').steady.upToDate rest'.2
  have registry : t.registry = u.registry := ahead.registry.trans ahead'.registry.symm
  have script : t.script = u.script := ahead.script.trans ahead'.script.symm
  have viewport : t.viewport = u.viewport := ahead.viewport.trans ahead'.viewport.symm
  have generation : t.generation = u.generation := by
    have passes := ahead.generation_of_idle rest
    have passes' := ahead'.generation_of_idle rest'
    omega
  have outcome (key : String) : t.cache.outcome? key = u.cache.outcome? key :=
    ahead.alike_of_idle ahead' rest rest' key
  have alike : t.cache.Alike readAsCached u.cache := .of_outcome? outcome
  refine ⟨script, viewport, generation, outcome, ?_, ?_⟩
  · rw [upToDate.frame, upToDate'.frame, pass, pass, registry, script, viewport, generation,
      ops_runPass_congr u.registry u.viewport u.script alike u.generation u.generation]
  · rw [upToDate.report, upToDate'.report, pass, pass, registry, script, viewport, generation,
      read_runPass u.registry u.viewport u.viewport u.script alike u.generation]

/-- Two pictures, one of them there before the script that does not place it. -/
theorem ends_alike_of_early_arrival :
    let resolve : Resolver := fun url => .ok ⟨url, 4, 3⟩
    let s := start builtinRegistry (640, 480) none ⟨[], []⟩
    let t := run resolve s
      [.input (.loadReference "b" "b.png"), .input (.setScript "reference a.png"),
        .turn (.finish "a.png"), .turn (.finish "b"), .turn .processArrivals]
    let u := run resolve s
      [.input (.loadReference "b" "b.png"), .turn (.finish "b"), .turn .handleArrival,
        .turn (.relabel "b"), .input (.setScript "reference a.png"), .turn .settle]
    t.Idle ∧ u.Idle ∧ t.generation = 3 ∧
    t.script = u.script ∧ t.viewport = u.viewport ∧ t.generation = u.generation ∧
      (∀ key, t.cache.outcome? key = u.cache.outcome? key) ∧
      t.recording.currentFrame = u.recording.currentFrame ∧
      t.lastReport.map (Report.read readAsCached)
        = u.lastReport.map (Report.read readAsCached) := by
  intro resolve s t u
  have rest : t.Idle := ⟨by decide +kernel, by decide +kernel⟩
  have rest' : u.Idle := ⟨by decide +kernel, by decide +kernel⟩
  exact ⟨rest, rest', by decide +kernel,
    ends_alike_of_inputs_eq (reachable_start _ _ _ _) resolve rfl rest rest'⟩

end Linework.Session
