import Linework.Proofs.Session.Scene

/-!
# `Linework.Proofs.Session.Interleaved`: whole steps are interleavings

A session that nothing runs beside takes long steps: a fetch ends in one go, all arrivals
queued are dealt with together, and settling goes through its rounds. Each of these is what
some interleaving comes to, so whatever holds of every interleaving holds of them. `Leads`
says this of a scene and the session it is to come to.

Between whole steps no task is halfway through the end of its fetch (`Scene.Calm`). That is
all there has to be said of the tasks: the other acts are those of the session itself.
-/

set_option autoImplicit false

namespace Linework.Session

open Cache (Progress TaskStep Tended)
open Relation (ReflTransGen)

variable {resolve : Resolver}

/-- No task is between the storing of its entry and the departure of its key. -/
def Scene.Calm (sc : Scene) : Prop :=
  ∀ key, sc.progress key ≠ .stored ∧ sc.progress key ≠ .announced

/-- A task that is moved past the end of its fetch, or not yet to it, leaves the scene calm. -/
theorem Scene.Calm.moved {sc : Scene} (h : sc.Calm) (key : String) {now : Progress}
    (late : now ≠ .stored ∧ now ≠ .announced) (other : String) :
    Function.update sc.progress key now other ≠ .stored ∧
      Function.update sc.progress key now other ≠ .announced := by
  by_cases hk : other = key
  · rwa [hk, Function.update_self]
  · rw [Function.update_of_ne hk]
    exact h other

/-- Some interleaving leads from the scene to a calm one, with this session in this phase,
and handles so many arrivals. -/
def Leads (sc : Scene) (after : Session) (phase : Phase) (count : Nat) : Prop :=
  ∃ acts, (sc.run acts).session = after ∧ (sc.run acts).phase = phase ∧ (sc.run acts).Calm ∧
    (sc.run acts).handled.length = sc.handled.length + count

section

variable {sc : Scene} {s t : Session} {phase last : Phase} {n m : Nat}

/-- Acts that are known to come to a calm scene lead there. -/
theorem leads_of_run_eq {sc' : Scene} {acts : List Act} (whole : sc.run acts = sc')
    (calm : sc'.Calm) (handled : sc'.handled.length = sc.handled.length + n) :
    Leads sc sc'.session sc'.phase n := by
  subst whole
  exact ⟨acts, rfl, rfl, calm, handled⟩

/-- A calm scene leads to itself, by no acts. -/
theorem leads_refl (calm : sc.Calm) : Leads sc sc.session sc.phase 0 :=
  ⟨[], rfl, rfl, calm, rfl⟩

/-- Some acts come first. -/
theorem Leads.of_run (acts : List Act) (h : Leads (sc.run acts) t last m)
    (total : (sc.run acts).handled.length + m = sc.handled.length + n) : Leads sc t last n := by
  obtain ⟨others, session, phased, calm, counted⟩ := h
  rw [← sc.run_append] at session phased calm counted
  exact ⟨acts ++ others, session, phased, calm, counted.trans total⟩

/-- What is led to from the scene that was led to is led to. Of that scene only its session, its
phase and its order are known, which is all that the second stretch may use. -/
theorem Leads.trans (h : Leads sc s phase n) (orderly : Orderly sc)
    (next : ∀ sc', Orderly sc' → sc'.Calm → sc'.session = s → sc'.phase = phase →
      Leads sc' t last m) : Leads sc t last (n + m) := by
  obtain ⟨acts, session, phased, calm, counted⟩ := h
  exact (next _ (orderly.run acts) calm session phased).of_run acts (by omega)

/-! ## The pictures move -/

/-- The tasks alone lead from the scene to a calm one with this session. -/
def TasksLead (sc : Scene) (after : Session) : Prop :=
  ∃ steps : List (String × TaskStep),
    let later := sc.run (steps.map fun x => .task x.1 x.2)
    later.session = after ∧ later.phase = sc.phase ∧ later.Calm ∧ later.handled = sc.handled

/-- What the tasks lead to is led to, with no arrival handled on the way. -/
theorem TasksLead.leads (h : TasksLead sc t) : Leads sc t sc.phase 0 := by
  obtain ⟨steps, session, phased, calm, handled⟩ := h
  exact ⟨_, session, phased, calm, by rw [handled, Nat.add_zero]⟩

/-- A fetch ends in three steps of its task. -/
theorem tasksLead_finish (tended : Tended sc.session.cache sc.started sc.progress sc.handled)
    (calm : sc.Calm) {f : Fetch} (hf : f ∈ sc.session.cache.inFlight)
    (outcome : Except Failure Picture) :
    TasksLead sc (sc.session.withCache (sc.session.cache.finish f.key outcome)) := by
  have pending := Cache.isPending_of_mem hf
  obtain ⟨member, flying⟩ := (tended.flying f.key).mp (List.mem_map_of_mem hf)
  -- A task in flight that is not halfway through is still at its beginning.
  have fetching : sc.progress f.key = .fetching := by
    cases progress : sc.progress f.key with
    | fetching => rfl
    | stored => exact absurd progress (calm f.key).1
    | announced => exact absurd progress (calm f.key).2
    | departed | relabelled =>
      rw [progress] at flying
      cases flying
  -- Each step makes the next one possible.
  let stored := sc.advance f.key (.store outcome)
  let announced := stored.advance f.key .announce
  have first : sc.step (.task f.key (.store outcome)) = stored :=
    Scene.step_of_allows ((sc.allows_iff _ _).mpr ⟨member, fetching, rfl⟩)
  have second : stored.step (.task f.key .announce) = announced :=
    Scene.step_of_allows ((stored.allows_iff _ _).mpr ⟨member, Function.update_self _ _ _, rfl⟩)
  have third : announced.step (.task f.key .depart) = announced.advance f.key .depart :=
    Scene.step_of_allows ((announced.allows_iff _ _).mpr ⟨member, Function.update_self _ _ _, rfl⟩)
  have whole : sc.run [.task f.key (.store outcome), .task f.key .announce, .task f.key .depart]
      = announced.advance f.key .depart := by
    rw [← third, ← second, ← first]
    rfl
  rw [Cache.finish_eq_steps pending tended.listening outcome]
  refine ⟨[(f.key, .store outcome), (f.key, .announce), (f.key, .depart)], ?_⟩
  simp only [List.map_cons, List.map_nil, whole]
  refine ⟨rfl, rfl, fun other => ?_, rfl⟩
  by_cases hk : other = f.key
  · have last : (announced.advance f.key .depart).progress f.key = .departed :=
      Function.update_self _ _ _
    rw [hk, last]
    exact ⟨nofun, nofun⟩
  · have same : (announced.advance f.key .depart).progress other = sc.progress other := by
      simp [announced, stored, Scene.advance, hk]
    rw [same]
    exact calm other

/-- A picture is relabelled by its task, or was not to be relabelled. -/
theorem tasksLead_relabel (tended : Tended sc.session.cache sc.started sc.progress sc.handled)
    (calm : sc.Calm) (key : String) :
    TasksLead sc (sc.session.withCache (sc.session.cache.relabelKey key)) := by
  by_cases due : key ∈ sc.session.cache.released
  · -- Its arrival was handled, so the task queued it, and it is past that when all is calm.
    obtain ⟨handled, notYet⟩ := tended.letsGo.due key due
    obtain ⟨member, announced⟩ := (tended.announced key).mp (List.mem_append_left _ handled)
    have departed : sc.progress key = .departed := by
      cases progress : sc.progress key with
      | departed => rfl
      | announced => exact absurd progress (calm key).2
      | relabelled => exact absurd progress notYet
      | fetching | stored =>
        rw [progress] at announced
        cases announced
    have allowed : sc.allows key .relabel = true :=
      (sc.allows_iff _ _).mpr ⟨member, departed, decide_eq_true due⟩
    have whole : sc.run [.task key .relabel] = sc.advance key .relabel := Scene.step_of_allows allowed
    refine ⟨[(key, .relabel)], ?_⟩
    simp only [List.map_cons, List.map_nil, whole]
    exact ⟨rfl, rfl, calm.moved key ⟨nofun, nofun⟩, rfl⟩
  · have same : sc.session.cache.relabelKey key = sc.session.cache := by
      rw [Cache.relabelKey, if_neg due]
    rw [same]
    exact ⟨[], rfl, rfl, calm, rfl⟩

/-- While somebody waits the pictures move by steps of their tasks: each end of a fetch is three
of them, and each relabelling one. -/
theorem Orderly.leads_drives (h : Orderly sc) (calm : sc.Calm) {cache : Cache}
    (drives : ReflTransGen (Cache.Drive resolve) sc.session.cache cache) :
    Leads sc (sc.session.withCache cache) sc.phase 0 := by
  induction drives with
  | refl => exact leads_refl calm
  | @tail c d _ drive ih =>
    refine ih.trans (m := 0) h fun sc' orderly calm' session phased => ?_
    have same : sc'.session.cache = c := by rw [session]; rfl
    have after : sc.session.withCache d = sc'.session.withCache d := by rw [session]; rfl
    rw [after, ← phased]
    cases drive with
    | @finish f hf free =>
      rw [← same]
      exact (tasksLead_finish orderly.tended calm' (same ▸ hf) _).leads
    | relabel key =>
      rw [← same]
      exact (tasksLead_relabel orderly.tended calm' key).leads

/-! ## The session settles -/

/-- When the session has dealt with everything queued it returns or waits. -/
def afterDrain (idle : Bool) : Phase := if idle then .settled true else .waiting

/-- The session deals with everything queued, one arrival at a time. -/
theorem Orderly.leads_drain (h : Orderly sc) (calm : sc.Calm) {idle : Bool}
    (draining : sc.phase = .draining idle) :
    Leads sc sc.session.processArrivals (afterDrain idle) sc.session.cache.queued.length := by
  -- The induction is on the queue, from which each act takes the first arrival.
  induction queue : sc.session.cache.queued generalizing sc with
  | nil =>
    have done : sc.run [.proceed] = sc.enter (afterDrain idle) := by
      show sc.proceed = _
      rw [Scene.proceed, draining, queue]
      cases idle <;> rfl
    have nothing : sc.session.processArrivals = sc.session := by
      rw [processArrivals, queue]
      rfl
    rw [nothing]
    exact leads_of_run_eq done calm rfl
  | cons key rest ih =>
    have first : sc.step .proceed = sc.handle := by
      show sc.proceed = _
      rw [Scene.proceed, draining, queue]
    have handled := h.handle_eq queue
    have left : sc.handle.session.cache.queued = rest := by
      rw [handled]
      show sc.session.handleArrival.cache.queued = rest
      rw [cache_handleArrival h.known queue, Cache.queued_letGo, Cache.receive, queue]
    have others : sc.session.processArrivals = sc.handle.session.processArrivals := by
      rw [processArrivals, queue, processArrivals, left, handled]
      rfl
    -- One act deals with the first arrival, and the others are those of the scene after it.
    have more := ih h.handle (by rw [handled]; exact calm) (by rw [handled]; exact draining) left
    rw [others]
    rw [← first] at more ⊢
    refine more.of_run [.proceed] ?_
    show (sc.step .proceed).handled.length + rest.length = _
    rw [first, handled, List.length_append, List.length_singleton, List.length_cons]
    omega

/-- From its question on, the session deals with everything queued. -/
theorem Orderly.leads_processArrivals (h : Orderly sc) (calm : sc.Calm) (asking : sc.phase = .asking) :
    Leads sc sc.session.processArrivals (afterDrain sc.session.cache.inFlight.isEmpty)
      sc.session.cache.queued.length := by
  have asks : sc.run [.proceed] = sc.enter (.draining sc.session.cache.inFlight.isEmpty) := by
    show sc.proceed = _
    rw [Scene.proceed, asking]
  have orderly : Orderly (sc.run [.proceed]) := h.run _
  refine Leads.of_run [.proceed] (m := sc.session.cache.queued.length) ?_ (by rw [asks]; rfl)
  rw [asks] at orderly ⊢
  exact orderly.leads_drain calm rfl

/-- Where something was in flight the session then waits, while the pictures move. -/
theorem Orderly.leads_waited (h : Orderly sc) (calm : sc.Calm) (asking : sc.phase = .asking)
    (busy : sc.session.cache.inFlight ≠ []) {cache : Cache}
    (drives : ReflTransGen (Cache.Drive resolve) sc.session.processArrivals.cache cache) :
    Leads sc (sc.session.processArrivals.withCache cache) .waiting sc.session.cache.queued.length := by
  have drained := h.leads_processArrivals calm asking
  have flying : sc.session.cache.inFlight.isEmpty = false := by
    rw [← Bool.not_eq_true, List.isEmpty_iff]
    exact busy
  rw [flying] at drained
  refine drained.trans (m := 0) h fun sc' orderly calm' session phased => ?_
  rw [← session] at drives ⊢
  have waiting : sc'.phase = .waiting := phased
  rw [← waiting]
  exact orderly.leads_drives calm' drives

/-- Settling is what some interleaving comes to. -/
theorem Settles.leads (settles : Settles resolve s n t) (h : Orderly sc) (calm : sc.Calm)
    (session : sc.session = s) (asking : sc.phase = .asking) : ∃ idle, Leads sc t (.settled idle) n := by
  -- The induction is on the rounds. Each begins with the session asking, in a scene that the
  -- round before left.
  induction settles generalizing sc with
  | @idle s landed =>
    subst session
    have drained := h.leads_processArrivals calm asking
    rw [landed] at drained
    exact ⟨true, drained⟩
  | @inVain s cache busy drives held none =>
    subst session
    refine ⟨false, (h.leads_waited calm asking busy drives).trans (m := 0) h ?_⟩
    intro sc' orderly calm' session waiting
    have expired : sc'.run [.expire] = sc'.enter (.settled false) := if_pos waiting
    rw [← session]
    exact leads_of_run_eq expired calm' rfl
  | @round s u t more first rest ih =>
    subst session
    cases first with
    | @waited cache busy drives came =>
      -- The other rounds are told of the scene that the wait led to.
      obtain ⟨acts, session, waiting, calm', counted⟩ := h.leads_waited calm asking busy drives
      have orderly : Orderly (sc.run acts) := h.run acts
      obtain ⟨key, others, queue⟩ := List.exists_cons_of_ne_nil came
      have queue' : (sc.run acts).session.cache.queued = key :: others := by
        rw [session]
        exact queue
      have handles : (sc.run acts).run [.proceed] = (sc.run acts).handle.enter .asking := by
        show (sc.run acts).proceed = _
        rw [Scene.proceed, waiting, queue']
      have handled := orderly.handle_eq queue'
      have asks : Orderly ((sc.run acts).run [.proceed]) := orderly.run _
      obtain ⟨idle, later⟩ := ih asks (by rw [handles, handled]; exact calm')
        (by rw [handles, handled, session]; rfl) (by rw [handles]; rfl)
      refine ⟨idle, (later.of_run [.proceed] (n := 1 + more) ?_).of_run acts (by omega)⟩
      rw [handles, handled]
      show ((sc.run acts).handled ++ [key]).length + more = _
      rw [List.length_append, List.length_singleton, Nat.add_assoc]

/-- `settle` is, whenever it is called on a scene. -/
theorem Orderly.leads_settle (h : Orderly sc) (calm : sc.Calm) (steady : sc.session.Steady)
    (rest : sc.phase.atRest = true) (resolve : Resolver) :
    ∃ idle, Leads sc (sc.session.settle resolve).2 (.settled idle) (sc.session.settle resolve).1 := by
  have begins : sc.run [.settle] = sc.enter .asking := if_pos rest
  have settles : Settles resolve sc.session _ _ := steady.settles_settle
  have orderly : Orderly (sc.enter .asking) := h.enter trivial
  obtain ⟨idle, leads⟩ := settles.leads orderly calm rfl rfl
  rw [← begins] at leads
  exact ⟨idle, leads.of_run [.settle] (by rw [begins]; rfl)⟩

end

end Linework.Session
