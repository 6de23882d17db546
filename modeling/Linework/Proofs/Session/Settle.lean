import Linework.Proofs.Session.Steady

/-!
# `Linework.Proofs.Session.Settle`: what settling deals with, and what it leaves

A settling session asks whether anything is in flight, deals with every arrival queued, and,
unless nothing was in flight, waits for one more and starts again. While it waits, the fetches
that nothing keeps back end, in any order (`Cache.Drive`). `Settles` is this loop without a
bound on its rounds, and `settle` is one way through it (`settles_settle`).

What carries every proof here is one sum, the arrivals queued and the fetches in flight that
nothing keeps back. A fetch that ends moves one from the second to the first
(`Cache.Drive.queued_add_open`), dealing with an arrival takes one away, and no pass adds
one, for no pass of a steady session starts a fetch.

* `Steady.round`: so each round takes something away, and no loop goes on for ever.
* `Settles.drained`: and a loop that ended dealt with exactly this many.
* `Reachable.inFlight_settles_keepingBack`: any of the fetches in flight can be kept back, each
  by its key, and settling leaves just those that are.
* `settle_drains`: all of this, for every reachable session.
-/

set_option autoImplicit false

namespace Linework.Session

open Relation (ReflTransGen)

variable {resolve : Resolver}

/-! ## Dealing with arrivals -/

/-- The session `t` has dealt with `count` of the arrivals queued in `s`, and showed its
hints for each. -/
structure Handles (count : Nat) (s t : Session) : Prop where
  inFlight : t.cache.inFlight = s.cache.inFlight
  queued : t.cache.queued = s.cache.queued.drop count
  shown : ∃ hints, t.shown = s.shown ++ hints ∧ hints.length = count

/-- With something queued, one arrival is dealt with and its hints are shown once. -/
theorem Steady.handles_handleArrival {s : Session} (h : s.Steady) (some : s.cache.queued ≠ []) :
    Handles 1 s s.handleArrival := by
  obtain ⟨key, rest, queue⟩ := List.exists_cons_of_ne_nil some
  have received : s.cache.receive.2
      = { s.cache with queued := rest, received := s.cache.received ++ [key] } := by
    rw [Cache.receive, queue]
  -- The pass asks for nothing new, so all it leaves in the cache is the arrival let go of.
  have cache : s.handleArrival.cache = s.cache.receive.2.letGo key :=
    cache_handleArrival h.known queue
  refine ⟨?_, ?_, ?_⟩
  · rw [cache, Cache.inFlight_letGo, received]
  · rw [cache, Cache.queued_letGo, received, queue, List.drop_one, List.tail_cons]
  · rw [handleArrival_of_queued queue]
    exact ⟨[_], rfl, rfl⟩

/-- As many arrivals as are queued can be dealt with one after another, and each shows its hints
once. -/
theorem Steady.handles_handleArrivals {s : Session} (h : s.Steady) {count : Nat}
    (enough : count ≤ s.cache.queued.length) :
    Handles count s (handleArrivals count s) ∧ (handleArrivals count s).Steady := by
  induction count generalizing s with
  | zero => exact ⟨⟨rfl, rfl, [], (List.append_nil _).symm, rfl⟩, h⟩
  | succ count ih =>
    -- The first arrival takes one from the queue, so there are enough left for the others.
    have first := h.handles_handleArrival (List.ne_nil_of_length_pos (by omega))
    obtain ⟨others, steady⟩ := ih h.handleArrival (by
      rw [first.queued, List.length_drop]
      omega)
    obtain ⟨hint, shown, one⟩ := first.shown
    obtain ⟨hints, shown', more⟩ := others.shown
    refine ⟨⟨others.inFlight.trans first.inFlight, ?_, hint ++ hints, ?_, ?_⟩, steady⟩
    · rw [handleArrivals, others.queued, first.queued, List.drop_drop, Nat.add_comm]
    · rw [handleArrivals, shown', shown, List.append_assoc]
    · rw [List.length_append, one, more, Nat.add_comm]

/-- Processing the arrivals deals with all that are queued. -/
theorem Steady.handles_processArrivals {s : Session} (h : s.Steady) :
    Handles s.cache.queued.length s s.processArrivals ∧ s.processArrivals.Steady :=
  h.handles_handleArrivals (Nat.le_refl _)

/-- After processing nothing is queued, for a pass queues no arrival. -/
theorem Steady.queued_processArrivals {s : Session} (h : s.Steady) :
    s.processArrivals.cache.queued = [] := by
  rw [h.handles_processArrivals.1.queued, List.drop_length]

/-! ## The loop -/

/-- The session with another cache. -/
def withCache (s : Session) (cache : Cache) : Session := { s with cache := cache }

/-- One round that is not the last: something was in flight, everything queued is dealt with,
and while the session waits the pictures move until an arrival comes, which is dealt with. -/
inductive Round (resolve : Resolver) : Session → Session → Prop
  | waited {s : Session} {cache : Cache} (busy : s.cache.inFlight ≠ [])
      (drives : ReflTransGen (Cache.Drive resolve) s.processArrivals.cache cache)
      (came : cache.queued ≠ []) :
      Round resolve s (s.processArrivals.withCache cache).handleArrival

/-- The loop of settling from its beginning to its end, with how many arrivals it dealt with.
It ends in a round that found nothing in flight, or in one that waited in vain: all that is
left in flight is kept back. -/
inductive Settles (resolve : Resolver) : Session → Nat → Session → Prop
  | idle {s : Session} (landed : s.cache.inFlight = []) :
      Settles resolve s s.cache.queued.length s.processArrivals
  | inVain {s : Session} {cache : Cache} (busy : s.cache.inFlight ≠ [])
      (drives : ReflTransGen (Cache.Drive resolve) s.processArrivals.cache cache)
      (held : cache.openFetches = []) (none : cache.queued = []) :
      Settles resolve s s.cache.queued.length (s.processArrivals.withCache cache)
  | round {s t u : Session} {more : Nat} (first : Round resolve s t)
      (rest : Settles resolve t more u) : Settles resolve s (s.cache.queued.length + 1 + more) u

/-- How many arrivals are due: those queued, and one for each fetch in flight that nothing
keeps back. -/
def dueArrivals (s : Session) : Nat := s.cache.queued.length + s.cache.openFetches.length

/-- After processing what is due are the open fetches. -/
theorem Steady.dueArrivals_processArrivals {s : Session} (h : s.Steady) :
    s.processArrivals.dueArrivals = s.cache.openFetches.length := by
  rw [dueArrivals, h.queued_processArrivals, Cache.openFetches, h.handles_processArrivals.1.inFlight,
    List.length_nil, Nat.zero_add, Cache.openFetches]

/-- While a session waits, no arrival that is due gets lost and none is added. -/
theorem Steady.drives {s : Session} (h : s.Steady) {cache : Cache}
    (drives : ReflTransGen (Cache.Drive resolve) s.cache cache) :
    (s.withCache cache).Steady ∧ (s.withCache cache).dueArrivals = s.dueArrivals ∧
      cache.inFlight.filter Fetch.gated = s.cache.inFlight.filter Fetch.gated := by
  induction drives with
  | refl => exact ⟨h, rfl, rfl⟩
  | @tail c d _ drive ih =>
    obtain ⟨steady, due, held⟩ := ih
    have next : (s.withCache d).Steady := steady.drift drive.drift
    exact ⟨next, (drive.queued_add_open steady.kept steady.listening).trans due,
      (drive.gated_eq steady.kept).trans held⟩

/-- The session at the end of its wait, whether it was in vain or not. -/
theorem Steady.waited {s : Session} (h : s.Steady) {cache : Cache}
    (drives : ReflTransGen (Cache.Drive resolve) s.processArrivals.cache cache) :
    (s.processArrivals.withCache cache).Steady ∧
      cache.queued.length + cache.openFetches.length = s.cache.openFetches.length ∧
      cache.inFlight.filter Fetch.gated = s.cache.inFlight.filter Fetch.gated := by
  obtain ⟨processed, steady⟩ := h.handles_processArrivals
  obtain ⟨waited, due, held⟩ := steady.drives drives
  exact ⟨waited, due.trans h.dueArrivals_processArrivals, held.trans (by rw [processed.inFlight])⟩

/-- A round deals with what was queued and one arrival more, and leaves the rest due. -/
theorem Steady.round {s t : Session} (h : s.Steady) (round : Round resolve s t) :
    t.Steady ∧ t.dueArrivals + (s.cache.queued.length + 1) = s.dueArrivals ∧
      t.cache.inFlight.filter Fetch.gated = s.cache.inFlight.filter Fetch.gated ∧
      ∃ hints, t.shown = s.shown ++ hints ∧ hints.length = s.cache.queued.length + 1 := by
  cases round with
  | @waited cache busy drives came =>
    obtain ⟨steady, due, held⟩ := h.waited drives
    have last := steady.handles_handleArrival came
    obtain ⟨before, shown, count⟩ := h.handles_processArrivals.1.shown
    obtain ⟨hints, shown', one⟩ := last.shown
    refine ⟨steady.handleArrival, ?_, ?_, before ++ hints, ?_, ?_⟩
    · have some : 0 < cache.queued.length := List.length_pos_of_ne_nil came
      rw [dueArrivals, last.queued, List.length_drop, Cache.openFetches, last.inFlight,
        ← Cache.openFetches, dueArrivals]
      show cache.queued.length - 1 + cache.openFetches.length + (s.cache.queued.length + 1)
        = s.cache.queued.length + s.cache.openFetches.length
      omega
    · rw [last.inFlight]
      exact held
    · rw [shown']
      show s.processArrivals.shown ++ hints = _
      rw [shown, List.append_assoc]
    · rw [List.length_append, count, one]

/-- No loop goes on for ever. -/
theorem Steady.acc_round {s : Session} (h : s.Steady) :
    Acc (fun t s => Round resolve s t) s := by
  -- The induction is on the arrivals due, and a round leaves at least one fewer.
  induction due : s.dueArrivals using Nat.strongRecOn generalizing s with
  | ind count ih =>
    refine ⟨s, fun t round => ?_⟩
    obtain ⟨steady, less, -⟩ := h.round round
    exact ih t.dueArrivals (by omega) steady rfl

/-! ## Where it ends -/

/-- The session `t` has dealt with `handled` arrivals since `s`, which are all that were due
then, and nothing is left but the fetches that are kept back. -/
structure Drained (s : Session) (handled : Nat) (t : Session) : Prop where
  counted : handled = s.cache.queued.length + s.cache.openFetches.length
  queued : t.cache.queued = []
  inFlight : t.cache.inFlight = s.cache.inFlight.filter Fetch.gated
  /-- The hints were shown once for each arrival. -/
  shown : ∃ hints, t.shown = s.shown ++ hints ∧ hints.length = handled

/-- A loop that ended has dealt with all that was due at its beginning. The induction is on its
rounds: what a round leaves due is what the rounds after it deal with. -/
theorem Settles.drained {s t : Session} {handled : Nat} (settles : Settles resolve s handled t)
    (h : s.Steady) : t.Steady ∧ Drained s handled t := by
  induction settles with
  | @idle s landed =>
    obtain ⟨processed, steady⟩ := h.handles_processArrivals
    refine ⟨steady, ?_, h.queued_processArrivals, ?_, processed.shown⟩
    · rw [Cache.openFetches, landed]
      rfl
    · rw [processed.inFlight, landed]
      rfl
  | @inVain s cache busy drives held none =>
    obtain ⟨steady, due, same⟩ := h.waited drives
    -- What is in flight after the wait is kept back, so it was kept back before.
    have left : cache.inFlight.filter Fetch.gated = cache.inFlight := by
      rw [List.filter_eq_self]
      intro f hf
      have closed := List.filter_eq_nil_iff.mp held f hf
      simpa using closed
    refine ⟨steady, ?_, none, left.symm.trans same, h.handles_processArrivals.1.shown⟩
    -- The wait was in vain, so none of the open fetches was due to begin with.
    rw [none, held] at due
    rw [← due]
    rfl
  | @round s t u more first rest ih =>
    obtain ⟨steady, due, held, hints, shown, count⟩ := h.round first
    obtain ⟨last, drained⟩ := ih steady
    obtain ⟨others, shown', count'⟩ := drained.shown
    refine ⟨last, ?_, drained.queued, drained.inFlight.trans held, hints ++ others, ?_, ?_⟩
    · have counted := drained.counted
      rw [dueArrivals, dueArrivals] at due
      omega
    · rw [shown', shown, List.append_assoc]
    · rw [List.length_append, count, count']

/-! ## The bound on the rounds -/

/-- With more rounds than open fetches the bound is never met, for every round but the last
ends one. -/
theorem Steady.settles_settleRounds {s : Session} (h : s.Steady) {rounds : Nat}
    (enough : s.cache.openFetches.length < rounds) :
    Settles resolve s (s.settleRounds resolve rounds).1 (s.settleRounds resolve rounds).2 := by
  -- The induction is on the bound. Each round that goes on leaves fewer open fetches than it
  -- found.
  induction rounds generalizing s with
  | zero => omega
  | succ rounds ih =>
    have drives : ReflTransGen (Cache.Drive resolve) s.processArrivals.cache
        (s.processArrivals.cache.pump resolve) := Cache.pump_drives _
    obtain ⟨steady, due, -⟩ := h.waited drives
    have ended : (s.processArrivals.cache.pump resolve).openFetches = [] :=
      Cache.openFetches_pump _
    rw [settleRounds]
    split
    · rename_i landed
      exact .idle (List.isEmpty_iff.mp landed)
    · rename_i flying
      have busy : s.cache.inFlight ≠ [] := fun landed => flying (List.isEmpty_iff.mpr landed)
      dsimp only
      split
      · rename_i none
        exact .inVain busy drives ended (List.isEmpty_iff.mp none)
      · rename_i some
        have came : (s.processArrivals.pump resolve).cache.queued ≠ [] :=
          fun none => some (List.isEmpty_iff.mpr none)
        have last := steady.handles_handleArrival came
        refine .round (.waited busy drives came) (ih steady.handleArrival ?_)
        -- The pump ended every open fetch, and there was one, for an arrival came.
        have one : 0 < (s.processArrivals.cache.pump resolve).queued.length :=
          List.length_pos_of_ne_nil came
        rw [Cache.openFetches, last.inFlight]
        show (s.processArrivals.cache.pump resolve).openFetches.length < rounds
        rw [ended] at due ⊢
        rw [List.length_nil] at due ⊢
        omega

/-- `settle` allows for one round more than there are fetches in flight, so it goes to the end of
the loop. -/
theorem Steady.settles_settle {s : Session} (h : s.Steady) :
    Settles resolve s (s.settle resolve).1 (s.settle resolve).2 :=
  h.settles_settleRounds (Nat.lt_succ_of_le (List.length_filter_le _ _))

/-! ## At rest -/

/-- At rest the last report, if there was a pass, shows no picture as on its way. -/
theorem Steady.lastReport_of_idle {s : Session} (h : s.Steady) (idle : s.Idle)
    (ran : s.generation ≠ 0) :
    ∃ report, s.lastReport = some report ∧ downloadingHint ∉ report.hints := by
  have reads := (h.upToDate idle.2).report
  rw [if_neg ran, Option.map_eq_some_iff] at reads
  obtain ⟨report, last, same⟩ := reads
  have arrived : downloadingHint ∉ (s.pass s.generation).report.hints :=
    downloadingHint_not_mem_runPass (h.entered_of_idle idle) s.viewport _
  exact ⟨report, last, downloadingHint_not_mem_of_read (congrArg Report.hints same) arrived⟩

/-! ## What is kept back -/

/-- The history that keeps back the fetches of some keys, one after another. -/
def keepingBack (keys : List String) : List Event :=
  keys.map fun key => .turn (.keepBack key)

/-- Keeping back the fetches of some keys marks these and no others. -/
theorem inFlight_run_keepingBack (resolve : Resolver) (s : Session) (keys : List String) :
    (run resolve s (keepingBack keys)).cache.inFlight
      = s.cache.inFlight.map fun f => { f with gated := f.gated || decide (f.key ∈ keys) } := by
  induction keys generalizing s with
  | nil => simp [keepingBack, run]
  | cons key rest ih =>
    show (run resolve ((Turn.keepBack key).apply resolve s) (keepingBack rest)).cache.inFlight = _
    rw [ih]
    show (s.cache.keepBack key).inFlight.map _ = _
    rw [Cache.keepBack, List.map_map]
    refine List.map_congr_left fun f _ => ?_
    by_cases same : f.key = key
    · simp [same]
    · simp [same]

/-- Which fetches settling leaves is free. After those of some keys are kept back it leaves
these, and those that were kept back before. -/
theorem Reachable.inFlight_settles_keepingBack {s t : Session} (h : s.Reachable)
    {keys : List String} {handled : Nat}
    (settles : Settles resolve (Session.run resolve s (keepingBack keys)) handled t) :
    t.cache.inFlight.map Fetch.key
      = (s.cache.inFlight.filter fun f => f.gated || decide (f.key ∈ keys)).map Fetch.key := by
  obtain ⟨-, drained⟩ := settles.drained (h.run resolve _).steady
  rw [drained.inFlight, inFlight_run_keepingBack, List.filter_map, List.map_map]
  rfl

/-! ## What settling comes to -/

/-- Settling ends, in whatever order the open fetches end while it waits, and `settle` is one
way through its loop. It deals with every arrival queued and with one for each fetch in flight that
is not kept back; nothing is queued then and in flight are just the fetches that are kept back.
Each arrival dealt with showed its hints once. And if no fetch was kept back, the last
report of a session that ran a pass shows no picture as on its way. Any fetches may be among those
that are kept back, since each of them can be by itself (`Turn.keepBack`). -/
theorem settle_drains {s : Session} (h : s.Reachable) (resolve : Resolver) :
    Acc (fun t s => Round resolve s t) s ∧
    Settles resolve s (s.settle resolve).1 (s.settle resolve).2 ∧
    ∀ handled t, Settles resolve s handled t →
      handled = s.cache.queued.length + s.cache.openFetches.length ∧
      t.cache.queued = [] ∧ t.cache.inFlight = s.cache.inFlight.filter Fetch.gated ∧
      (∃ hints, t.shown = s.shown ++ hints ∧ hints.length = handled) ∧
      (s.cache.inFlight.filter Fetch.gated = [] → t.generation ≠ 0 →
        ∃ report, t.lastReport = some report ∧ downloadingHint ∉ report.hints) := by
  refine ⟨h.steady.acc_round, h.steady.settles_settle, fun handled t settles => ?_⟩
  obtain ⟨steady, drained⟩ := settles.drained h.steady
  -- What is left over was kept back, so where nothing was, the session is at rest.
  exact ⟨drained.counted, drained.queued, drained.inFlight, drained.shown, fun free ran =>
    steady.lastReport_of_idle ⟨drained.inFlight.trans free, drained.queued⟩ ran⟩

/-- One arrival is queued, one fetch is open, and one is kept back. -/
theorem settle_drains_two_of_three :
    let resolve : Resolver := fun url => .ok ⟨url, 4, 3⟩
    let s := run resolve (start builtinRegistry (640, 480) none ⟨[], []⟩)
      [.turn (.hold "c.png"),
        .input (.setScript "reference a.png\nreference b.png\nreference c.png"),
        .turn (.finish "a.png")]
    s.cache.queued = ["a.png"] ∧ s.cache.openFetches.map Fetch.key = ["b.png"] ∧
    (s.settle resolve).1 = 2 ∧ (s.settle resolve).2.cache.inFlight.map Fetch.key = ["c.png"] ∧
    Acc (fun t s => Round resolve s t) s ∧
    Settles resolve s (s.settle resolve).1 (s.settle resolve).2 ∧
    ∀ handled t, Settles resolve s handled t →
      handled = s.cache.queued.length + s.cache.openFetches.length ∧
      t.cache.queued = [] ∧ t.cache.inFlight = s.cache.inFlight.filter Fetch.gated ∧
      (∃ hints, t.shown = s.shown ++ hints ∧ hints.length = handled) ∧
      (s.cache.inFlight.filter Fetch.gated = [] → t.generation ≠ 0 →
        ∃ report, t.lastReport = some report ∧ downloadingHint ∉ report.hints) := by
  intro resolve s
  have reachable : s.Reachable := (reachable_start _ _ _ _).run _ _
  exact ⟨by decide +kernel, by decide +kernel, by decide +kernel, by decide +kernel,
    settle_drains reachable resolve⟩

end Linework.Session
