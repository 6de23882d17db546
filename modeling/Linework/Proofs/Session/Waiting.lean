import Linework.Proofs.Session.Scene

/-!
# `Linework.Proofs.Session.Waiting`: what settling waits for

A task queues its arrival before it takes its key out of flight, and a settling session asks
whether anything is in flight before it deals with what is queued. So a session that found
nothing in flight has dealt with every arrival when it returns, however the tasks and the
session are interleaved (`all_handled_of_settled`).

The other way round it does not hold. Between queueing its arrival and taking its key out of
flight a task counts as in flight, so a session that asks then waits, and its last arrival may
be the one it deals with before. `waits_in_vain` is such an interleaving, and
`waits_for_some_iff` says when a session waits like that: exactly when it has handled every
arrival, and then the wait ends when its time is over and not before.
-/

set_option autoImplicit false

namespace Linework.Session

open Cache (Progress TaskStep)

/-! ## A session that found nothing in flight -/

/-- However a session and its tasks are interleaved: when the session has settled because
nothing was in flight, nothing is in flight and nothing is queued, every fetch ever started
has its entry, and the session has handled the arrival of each, once. -/
theorem all_handled_of_settled (registry : Registry) (canvas : UInt32 × UInt32)
    (store : Option String) (files : FileSystem) (acts : List Act)
    (idle : ((Scene.start registry canvas store files).run acts).phase = .settled true) :
    let sc := (Scene.start registry canvas store files).run acts
    sc.session.cache.calls = sc.started.length ∧
    (∀ key ∈ sc.started, (sc.session.cache.get? key).isSome = true) ∧
    sc.handled.Perm sc.started ∧
    sc.session.cache.inFlight = [] ∧ sc.session.cache.queued = [] := by
  intro sc
  have orderly : Orderly sc := (orderly_start registry canvas store files).run acts
  have fits := orderly.fits
  rw [idle] at fits
  -- Nothing was in flight when the session asked, and so it stayed until it returned.
  obtain ⟨landed, none⟩ := fits
  obtain ⟨handled, entered⟩ := orderly.tended.handled_of_idle landed none
  exact ⟨orderly.tended.counted, entered, handled, landed, none⟩

/-- Of two fetches the second ends first, while the session waits, and its key leaves only
after the other one has failed. -/
theorem all_handled_of_two_fetches :
    let sc := (Scene.start builtinRegistry (640, 480) none ⟨[], []⟩).run
      [.input (.setScript "reference a.png\nreference b.png"), .settle, .proceed, .proceed,
        .task "b.png" (.store (.ok ⟨"b.png", 4, 3⟩)), .task "b.png" .announce, .proceed,
        .task "a.png" (.store (.error .noRuntime)), .task "b.png" .depart, .task "a.png" .announce,
        .task "a.png" .depart, .proceed, .task "b.png" .relabel, .proceed, .proceed]
    sc.phase = .settled true ∧ sc.started = ["a.png", "b.png"] ∧
    sc.session.cache.calls = sc.started.length ∧
    (∀ key ∈ sc.started, (sc.session.cache.get? key).isSome = true) ∧
    sc.handled.Perm sc.started ∧
    sc.session.cache.inFlight = [] ∧ sc.session.cache.queued = [] := by
  intro sc
  have idle : sc.phase = .settled true := by decide +kernel
  exact ⟨idle, by decide +kernel, all_handled_of_settled _ _ _ _ _ idle⟩

/-! ## A session that waits -/

/-- The session waits, and nothing is queued. -/
structure Suspended (sc : Scene) : Prop where
  waiting : sc.phase = .waiting
  none : sc.session.cache.queued = []

/-- The session waits, and no arrival is to come any more. -/
structure Stuck (sc : Scene) : Prop where
  suspended : Suspended sc
  handled : ∀ key ∈ sc.started, key ∈ sc.handled

/-- Whatever happens to it, a stuck session stays stuck until its time is over. -/
theorem Stuck.step {sc : Scene} (h : Stuck sc) (orderly : Orderly sc) {act : Act}
    (other : act ≠ .expire) : Stuck (sc.step act) := by
  have busy : ¬ sc.phase.atRest = true := by
    rw [h.suspended.waiting]
    exact Bool.false_ne_true
  cases act with
  | task key step =>
    rw [Scene.step]
    split
    · rename_i allowed
      obtain ⟨member, source, -⟩ := (sc.allows_iff key step).mp allowed
      -- The arrival was handled, so the task is past queueing it.
      have announced := ((orderly.tended.announced key).mp
        (List.mem_append_left _ (h.handled key member))).2
      rw [source] at announced
      refine ⟨⟨h.suspended.waiting, ?_⟩, h.handled⟩
      cases step with
      | store outcome => cases announced
      | announce => cases announced
      | depart => exact h.suspended.none
      | relabel => exact (Cache.queued_relabelKey _ key).trans h.suspended.none
    · exact h
  -- While the session waits it takes no input and does not begin to settle again.
  | input input => rwa [Scene.step, if_neg busy]
  | handle => rwa [Scene.step, if_neg busy]
  | settle => rwa [Scene.step, if_neg busy]
  | proceed =>
    have same : sc.proceed = sc := by
      rw [Scene.proceed, h.suspended.waiting, h.suspended.none]
    rwa [Scene.step, same]
  | expire => exact absurd rfl other

/-- So a stuck session is stuck over any interleaving in which its time is not over. -/
theorem Stuck.run {sc : Scene} (h : Stuck sc) (orderly : Orderly sc) {acts : List Act}
    (others : ∀ act ∈ acts, act ≠ .expire) : Stuck (sc.run acts) := by
  induction acts generalizing sc with
  | nil => exact h
  | cons act rest ih =>
    obtain ⟨first, later⟩ := List.forall_mem_cons.mp others
    exact ih (h.step orderly first) (orderly.step act) later

/-- The wait ends when a task that has stored its entry queues its arrival: the session handles it
and asks again. -/
theorem Suspended.ends_of_stored {sc : Scene} (h : Suspended sc) (orderly : Orderly sc) {key : String}
    (member : key ∈ sc.started) (stored : sc.progress key = .stored) :
    (sc.run [.task key .announce, .proceed]).phase = .asking := by
  have allowed : sc.allows key .announce = true := (sc.allows_iff _ _).mpr ⟨member, stored, rfl⟩
  have waiting : (sc.advance key .announce).phase = .waiting := h.waiting
  have queue : (sc.advance key .announce).session.cache.queued = [key] := by
    show (sc.session.cache.announce key).queued = [key]
    rw [Cache.announce_of_listening orderly.tended.listening, h.none]
    rfl
  show ((sc.step (.task key .announce)).proceed).phase = .asking
  rw [Scene.step_of_allows allowed, Scene.proceed, waiting, queue]
  rfl

/-- The wait can end when a task is still fetching, whatever the fetch brings. -/
theorem Suspended.ends_of_fetching {sc : Scene} (h : Suspended sc) (orderly : Orderly sc)
    {key : String} (member : key ∈ sc.started) (fetching : sc.progress key = .fetching)
    (outcome : Except Failure Picture) :
    (sc.run [.task key (.store outcome), .task key .announce, .proceed]).phase = .asking := by
  have allowed : sc.allows key (.store outcome) = true :=
    (sc.allows_iff _ _).mpr ⟨member, fetching, rfl⟩
  have later : Suspended (sc.advance key (.store outcome)) := ⟨h.waiting, h.none⟩
  show ((sc.step (.task key (.store outcome))).run [.task key .announce, .proceed]).phase = .asking
  rw [Scene.step_of_allows allowed]
  exact later.ends_of_stored (orderly.task allowed) member (Function.update_self _ _ _)

/-- The arrival of the one fetch comes after the session has asked and before it waits. -/
def lastArrivalBeforeWait : Scene :=
  (Scene.start builtinRegistry (640, 480) none ⟨[], []⟩).run
    [.input (.setScript "reference a.png"), .settle, .proceed,
      .task "a.png" (.store (.ok ⟨"a.png", 4, 3⟩)), .task "a.png" .announce, .proceed, .proceed,
      .task "a.png" .depart]

/-- It is not so that a session that waits, with nothing queued, always waits for a fetch that
has still to queue its arrival: nothing at all may be in flight. -/
theorem waits_in_vain :
    ¬ ∀ (registry : Registry) (canvas : UInt32 × UInt32) (store : Option String)
      (files : FileSystem) (acts : List Act),
      let sc := (Scene.start registry canvas store files).run acts
      Suspended sc → ∃ key ∈ sc.session.cache.pendingKeys, (sc.progress key).isAnnounced = false := by
  intro always
  have suspended : Suspended lastArrivalBeforeWait := ⟨by decide +kernel, by decide +kernel⟩
  have landed : lastArrivalBeforeWait.session.cache.pendingKeys = [] := by decide +kernel
  have waits : ∃ key ∈ lastArrivalBeforeWait.session.cache.pendingKeys,
      (lastArrivalBeforeWait.progress key).isAnnounced = false := always _ _ _ _ _ suspended
  obtain ⟨key, pending, -⟩ := waits
  rw [landed] at pending
  exact List.not_mem_nil pending

/-- A session waits for an arrival that a task has still to queue exactly if there is a fetch
whose arrival it has not handled, and exactly then something else than the end of its time
can end the wait. -/
theorem waits_for_some_iff (registry : Registry) (canvas : UInt32 × UInt32)
    (store : Option String) (files : FileSystem) (acts : List Act)
    (suspended : Suspended ((Scene.start registry canvas store files).run acts)) :
    let sc := (Scene.start registry canvas store files).run acts
    ((∃ key ∈ sc.session.cache.pendingKeys, (sc.progress key).isAnnounced = false) ↔
      ∃ key ∈ sc.started, key ∉ sc.handled) ∧
    ((∃ key ∈ sc.started, key ∉ sc.handled) ↔
      ∃ later : List Act, (∀ act ∈ later, act ≠ .expire) ∧ (sc.run later).phase ≠ .waiting) := by
  intro sc
  have orderly : Orderly sc := (orderly_start registry canvas store files).run acts
  refine ⟨orderly.tended.unannounced_iff suspended.none, ?_, ?_⟩
  · intro left
    obtain ⟨key, pending, early⟩ := (orderly.tended.unannounced_iff suspended.none).mpr left
    have member : key ∈ sc.started := ((orderly.tended.flying key).mp pending).1
    have ends (later : List Act) (others : ∀ act ∈ later, act ≠ .expire)
        (asking : (sc.run later).phase = .asking) :
        ∃ later : List Act, (∀ act ∈ later, act ≠ .expire) ∧ (sc.run later).phase ≠ .waiting :=
      ⟨later, others, fun waiting => nomatch asking.symm.trans waiting⟩
    -- The task of that key can go on and queue its arrival.
    cases progress : sc.progress key with
    | fetching =>
      exact ends _ (by simp) (suspended.ends_of_fetching orderly member progress (.error .noRuntime))
    | stored => exact ends _ (by simp) (suspended.ends_of_stored orderly member progress)
    | announced | departed | relabelled =>
      rw [progress] at early
      cases early
  -- Conversely a session that has handled everything is stuck, so nothing but its time ends the
  -- wait.
  · rintro ⟨later, others, ended⟩
    by_contra all
    have stuck : Stuck sc := ⟨suspended, fun key member => by_contra fun new => all ⟨key, member, new⟩⟩
    exact ended (stuck.run orderly others).suspended.waiting

/-- One fetch whose arrival was handled, and one that has only begun. -/
theorem waits_for_second_of_two :
    let sc := (Scene.start builtinRegistry (640, 480) none ⟨[], []⟩).run
      [.input (.setScript "reference a.png\nreference b.png"), .settle, .proceed,
        .task "a.png" (.store (.ok ⟨"a.png", 4, 3⟩)), .task "a.png" .announce, .proceed, .proceed]
    Suspended sc ∧ sc.handled = ["a.png"] ∧
    ((∃ key ∈ sc.session.cache.pendingKeys, (sc.progress key).isAnnounced = false) ↔
      ∃ key ∈ sc.started, key ∉ sc.handled) ∧
    ((∃ key ∈ sc.started, key ∉ sc.handled) ↔
      ∃ later : List Act, (∀ act ∈ later, act ≠ .expire) ∧ (sc.run later).phase ≠ .waiting) := by
  intro sc
  have suspended : Suspended sc := ⟨by decide +kernel, by decide +kernel⟩
  exact ⟨suspended, by decide +kernel, waits_for_some_iff _ _ _ _ _ suspended⟩

end Linework.Session
