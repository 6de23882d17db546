import Linework.Proofs.Reference.Drift

/-!
# `Linework.Proofs.Reference.Task`: the end of a fetch, step by step

`Cache.finish` ends a fetch in one go. The task that carries a fetch does it in steps, and
between any two of them anything else may happen to the cache: it stores the entry, queues
the arrival, and takes the key out of flight (`finish_eq_steps`). Later, when the arrival was
let go of, it relabels its picture. In between a key stands in both tables, so `WellKept` does
not hold there.

`Tended` is what holds instead. A task is named by its key, for no key is fetched twice, and
`progress` says how far each has come. The tables, the queue and the arrivals handled are then
those that the progress of the tasks shows. Requests keep this up (`Tended.asks`), and so do
the steps of the tasks (`Tended.task`) and an owner who handles an arrival (`Tended.handle`).
-/

set_option autoImplicit false

namespace Linework.Cache

open Relation (ReflTransGen)

/-! ## The steps of a task -/

/-- How far the task of a fetch has come. -/
inductive Progress where
  | fetching
  /-- What the fetch brought has an entry. -/
  | stored
  /-- The arrival was queued. -/
  | announced
  /-- The key is in flight no longer, and the task waits for its arrival to be let go of. -/
  | departed
  | relabelled
  deriving DecidableEq, Repr

namespace Progress

/-- Whether the key is in flight. -/
def isFlying : Progress → Bool
  | fetching => true
  | stored => true
  | announced => true
  | departed => false
  | relabelled => false

/-- Whether the key has an entry. -/
def hasEntry : Progress → Bool
  | fetching => false
  | _ => true

/-- Whether the arrival was queued. -/
def isAnnounced : Progress → Bool
  | fetching => false
  | stored => false
  | _ => true

/-- At every moment a key has an entry or is in flight, so a key once asked for is never
forgotten. -/
theorem hasEntry_or_isFlying (progress : Progress) :
    progress.hasEntry = true ∨ progress.isFlying = true := by
  cases progress with
  | fetching => exact .inr rfl
  | _ => exact .inl rfl

/-- The arrival is queued before the key leaves. -/
theorem isFlying_of_unannounced {progress : Progress} (early : progress.isAnnounced = false) :
    progress.isFlying = true := by
  cases progress with
  | fetching => rfl
  | stored => rfl
  | announced => cases early
  | departed => cases early
  | relabelled => cases early

end Progress

/-- Stores what a fetch brought. A picture is fresh at first. -/
def store (c : Cache) (key : String) (outcome : Except Failure Picture) : Cache :=
  { c with entries := c.entries ++ [⟨key, .ofOutcome true outcome⟩] }

/-- Queues the arrival of a key, if somebody listens. -/
def announce (c : Cache) (key : String) : Cache :=
  if c.listening then { c with queued := c.queued ++ [key] } else c

/-- Takes a key out of flight. -/
def depart (c : Cache) (key : String) : Cache :=
  { c with inFlight := c.inFlight.filter fun f => f.key ≠ key }

/-- Where somebody listens, a fetch ends in these three steps. -/
theorem finish_eq_steps {c : Cache} {key : String} (pending : c.isPending key = true)
    (listens : c.listening = true) (outcome : Except Failure Picture) :
    c.finish key outcome = ((c.store key outcome).announce key).depart key := by
  simp [finish, store, announce, depart, pending, listens]

/-- What a task stores stands last. -/
theorem entryKeys_store (c : Cache) (key : String) (outcome : Except Failure Picture) :
    (c.store key outcome).entryKeys = c.entryKeys ++ [key] := by
  rw [entryKeys, store, List.map_append, entryKeys]
  rfl

/-- Where somebody listens the arrival is queued last. -/
theorem announce_of_listening {c : Cache} (listens : c.listening = true) (key : String) :
    c.announce key = { c with queued := c.queued ++ [key] } := by
  rw [announce, if_pos listens]

/-- A task that departs takes its own key out of flight. -/
theorem pendingKeys_depart (c : Cache) (key : String) :
    (c.depart key).pendingKeys = c.pendingKeys.filter fun other => other ≠ key := by
  rw [pendingKeys, depart, pendingKeys, List.filter_map]
  rfl

/-- A step of a task. -/
inductive TaskStep where
  | store (outcome : Except Failure Picture)
  | announce
  | depart
  | relabel

namespace TaskStep

/-- How far the task has come before the step. -/
def source : TaskStep → Progress
  | store _ => .fetching
  | announce => .stored
  | depart => .announced
  | relabel => .departed

/-- How far the task has come after the step. -/
def target : TaskStep → Progress
  | store _ => .stored
  | announce => .announced
  | depart => .departed
  | relabel => .relabelled

/-- Whether the task of a key can take the step. Only the last one has to be waited for. -/
def ready (key : String) (c : Cache) : TaskStep → Bool
  | relabel => decide (key ∈ c.released)
  | _ => true

/-- The cache after the task of a key took the step. -/
def apply (key : String) (c : Cache) : TaskStep → Cache
  | store outcome => c.store key outcome
  | announce => c.announce key
  | depart => c.depart key
  | relabel => c.relabelKey key

end TaskStep

/-! ## Requests -/

/-- The second cache was asked for keys, one after another, and nothing else happened to it. -/
def Asks : Cache → Cache → Prop :=
  ReflTransGen fun c d => ∃ key url, d = c.request key url

/-- One request is one key asked for. -/
theorem asks_request (c : Cache) (key url : String) : Asks c (c.request key url) :=
  .single ⟨key, url, rfl⟩

/-- Several requests are as many keys asked for, one after another. -/
theorem asks_requestAll (c : Cache) (urls : List String) : Asks c (c.requestAll urls) := by
  induction urls generalizing c with
  | nil => exact .refl
  | cons url rest ih => exact .head ⟨url, url, rfl⟩ (ih _)

/-- The keys in flight in the second cache beyond those of the first. -/
def launched (c d : Cache) : List String := (d.inFlight.drop c.inFlight.length).map Fetch.key

/-- The fetches that were added at the end are the ones launched. -/
theorem launched_of_append {c d : Cache} {more : List Fetch}
    (h : d.inFlight = c.inFlight ++ more) : launched c d = more.map Fetch.key := by
  rw [launched, h, List.drop_left]

/-- Where the same fetches are in flight none was launched. -/
theorem launched_of_inFlight_eq {c d : Cache} (h : d.inFlight = c.inFlight) : launched c d = [] :=
  launched_of_append (h.trans (List.append_nil _).symm)

/-- A request launches the fetch of its key, unless the key is known. -/
theorem launched_request (c : Cache) (key url : String) :
    launched c (c.request key url) = if c.knows key then [] else [key] := by
  cases known : c.knows key with
  | true =>
    rw [request_of_knows known]
    exact launched_of_inFlight_eq rfl
  | false =>
    rw [request_of_unknown known]
    have added : (c.launch key url).inFlight = c.inFlight ++ [⟨key, url, decide (url ∈ c.held)⟩] := rfl
    exact launched_of_append added

/-- Keys that are asked for are put behind those in flight, which stay. -/
theorem Asks.keeps_inFlight {c d : Cache} (h : Asks c d) : c.inFlight <+: d.inFlight := by
  induction h with
  | refl => exact List.prefix_refl _
  | @tail d e _ step ih =>
    obtain ⟨key, url, rfl⟩ := step
    refine ih.trans ?_
    rcases d.request_eq_or key url with same | launched
    · exact ⟨[], by rw [same, List.append_nil]⟩
    · rw [launched]
      exact List.prefix_append _ _

/-- Over two stretches what was launched is what was launched in the one and then in the other. -/
theorem launched_trans {c d e : Cache} (h : c.inFlight <+: d.inFlight)
    (h' : d.inFlight <+: e.inFlight) : launched c e = launched c d ++ launched d e := by
  obtain ⟨more, first⟩ := h
  obtain ⟨others, second⟩ := h'
  rw [launched_of_append first.symm, launched_of_append second.symm, ← List.map_append]
  exact launched_of_append (by rw [← second, ← first, List.append_assoc])

/-! ## Progress -/

/-- The keys listed are those of the tasks that have come as far as the flag says. -/
def Shows (started : List String) (progress : String → Progress) (flag : Progress → Bool)
    (keys : List String) : Prop :=
  ∀ key, key ∈ keys ↔ key ∈ started ∧ flag (progress key) = true

section Shows

variable {started keys keys' : List String} {progress : String → Progress} {flag : Progress → Bool}
  {key : String} {now : Progress}

/-- A move that does not change the flag does not show. -/
theorem Shows.keep (h : Shows started progress flag keys) (same : flag now = flag (progress key)) :
    Shows started (Function.update progress key now) flag keys := by
  intro other
  rw [h other]
  -- Only the moved key could show, and its flag is as before.
  by_cases hk : other = key
  · rw [hk, Function.update_self, same]
  · rw [Function.update_of_ne hk]

/-- A move that changes the flag shows at its key and nowhere else. -/
theorem Shows.set (h : Shows started progress flag keys) (member : key ∈ started)
    (here : key ∈ keys' ↔ flag now = true)
    (others : ∀ other, other ≠ key → (other ∈ keys' ↔ other ∈ keys)) :
    Shows started (Function.update progress key now) flag keys' := by
  intro other
  by_cases hk : other = key
  · rw [hk, Function.update_self, here, and_iff_right member]
  · rw [Function.update_of_ne hk, others other hk, h other]

/-- A task that starts shows nowhere where its flag is off. -/
theorem Shows.start (h : Shows started progress flag keys) (off : flag (progress key) = false) :
    Shows (started ++ [key]) progress flag keys := by
  intro other
  rw [h other, List.mem_append, List.mem_singleton, or_and_right, iff_self_or]
  rintro ⟨rfl, on⟩
  rw [off] at on
  cases on

/-- A task that starts shows where its flag is on, as a key listed last. -/
theorem Shows.start_on (h : Shows started progress flag keys) (on : flag (progress key) = true) :
    Shows (started ++ [key]) progress flag (keys ++ [key]) := by
  intro other
  rw [List.mem_append, List.mem_append, h other, List.mem_singleton, or_and_right, or_congr_right]
  exact ⟨fun same => ⟨same, same ▸ on⟩, And.left⟩

end Shows

/-! ## The invariant of the tasks -/

/-- Whoever handles an arrival lets go of it at once, and the task relabels for it once. -/
structure LetsGo (c : Cache) (progress : String → Progress) (handled : List String) : Prop where
  received : c.received = []
  due : ∀ key ∈ c.released, key ∈ handled ∧ progress key ≠ .relabelled
  once : c.released.Nodup
  settled : ∀ key, progress key = .relabelled → key ∈ handled

/-- A step of a task that comes before its last one, and lets go of nothing, concerns no
release. -/
theorem LetsGo.move {c d : Cache} {progress : String → Progress} {handled : List String}
    (h : LetsGo c progress handled) (received : d.received = c.received)
    (released : d.released = c.released) (key : String) {now : Progress} (early : now ≠ .relabelled) :
    LetsGo d (Function.update progress key now) handled where
  received := received.trans h.received
  due other member := by
    obtain ⟨before, notYet⟩ := h.due other (released ▸ member)
    refine ⟨before, ?_⟩
    by_cases hk : other = key
    · rwa [hk, Function.update_self]
    · rwa [Function.update_of_ne hk]
  once := released ▸ h.once
  settled other last := by
    by_cases hk : other = key
    · rw [hk, Function.update_self] at last
      exact absurd last early
    · rw [Function.update_of_ne hk] at last
      exact h.settled other last

/-- What holds of a cache with its tasks, one for each key of `started`, when the arrivals of
`handled` have been handled. -/
structure Tended (c : Cache) (started : List String) (progress : String → Progress)
    (handled : List String) : Prop where
  listening : c.listening = true
  distinct : started.Nodup
  counted : c.calls = started.length
  unstarted : ∀ key, key ∉ started → progress key = .fetching
  flying : Shows started progress Progress.isFlying c.pendingKeys
  entered : Shows started progress Progress.hasEntry c.entryKeys
  /-- An arrival that was queued is queued still, or was handled. -/
  announced : Shows started progress Progress.isAnnounced (handled ++ c.queued)
  once : (handled ++ c.queued).Nodup
  letsGo : LetsGo c progress handled

/-- Nothing was started in the empty cache. -/
theorem tended_empty : Tended empty [] (fun _ => .fetching) [] where
  listening := rfl
  distinct := List.nodup_nil
  counted := rfl
  unstarted _ _ := rfl
  flying key := by simp [pendingKeys, empty]
  entered key := by simp [entryKeys, empty]
  announced key := by simp [empty]
  once := List.nodup_nil
  letsGo := ⟨rfl, fun _ h => absurd h List.not_mem_nil, List.nodup_nil, fun _ h => nomatch h⟩

namespace Tended

variable {c : Cache} {started handled : List String} {progress : String → Progress} {key : String}

/-- The keys known are those of the tasks, for each task has its key in a table at every
moment. -/
theorem knows_iff (h : Tended c started progress handled) (key : String) :
    c.knows key = true ↔ key ∈ started := by
  rw [Cache.knows_iff, keys, List.mem_append, h.entered key, h.flying key, ← and_or_left,
    and_iff_left_iff_imp]
  exact fun _ => (progress key).hasEntry_or_isFlying

/-- A request starts a task for what it launches. -/
theorem request (h : Tended c started progress handled) (key url : String) :
    Tended (c.request key url) (started ++ launched c (c.request key url)) progress handled := by
  rw [launched_request]
  -- A key that is known has its task already, and nothing happens.
  cases known : c.knows key with
  | true =>
    rw [request_of_knows known, if_pos rfl, List.append_nil]
    exact h
  | false =>
    -- What was not known has no task yet, so where its task stands shows nowhere.
    have new : key ∉ started := by
      rw [← h.knows_iff, known]
      exact Bool.false_ne_true
    have early : progress key = .fetching := h.unstarted key new
    have flying : (c.launch key url).pendingKeys = c.pendingKeys ++ [key] := List.map_append
    rw [request_of_unknown known, if_neg Bool.false_ne_true]
    refine ⟨h.listening, ?_, ?_, ?_, ?_, h.entered.start (by rw [early]; rfl),
      h.announced.start (by rw [early]; rfl), h.once,
      ⟨h.letsGo.received, h.letsGo.due, h.letsGo.once, h.letsGo.settled⟩⟩
    · rw [← List.concat_eq_append]
      exact .concat new h.distinct
    · rw [List.length_append, ← h.counted]
      rfl
    · exact fun other absent => h.unstarted other fun old => absent (List.mem_append_left _ old)
    · rw [flying]
      exact h.flying.start_on (by rw [early]; rfl)

/-- However many requests there are, a task is started for each fetch. -/
theorem asks (h : Tended c started progress handled) {d : Cache} (asked : Asks c d) :
    Tended d (started ++ launched c d) progress handled := by
  induction asked with
  | refl =>
    rw [launched_of_inFlight_eq rfl, List.append_nil]
    exact h
  | @tail d e before step ih =>
    obtain ⟨key, url, rfl⟩ := step
    -- What the last request launched is put behind what the ones before it did.
    rw [launched_trans (Asks.keeps_inFlight before) (asks_request d key url).keeps_inFlight,
      ← List.append_assoc]
    exact ih.request key url

/-- Where a task that was started moves, the keys that were not started stay at the beginning. -/
theorem unstarted_update (h : Tended c started progress handled) (member : key ∈ started)
    (now : Progress) :
    ∀ other, other ∉ started → Function.update progress key now other = .fetching := by
  intro other absent
  have hk : other ≠ key := by
    rintro rfl
    exact absent member
  rw [Function.update_of_ne hk, h.unstarted other absent]

/-- A task stores: its key gets an entry, and is in flight still. -/
theorem store (h : Tended c started progress handled) (member : key ∈ started)
    (early : progress key = .fetching) (outcome : Except Failure Picture) :
    Tended (c.store key outcome) started (Function.update progress key .stored) handled where
  listening := h.listening
  distinct := h.distinct
  counted := h.counted
  unstarted := h.unstarted_update member _
  flying := h.flying.keep (by rw [early]; rfl)
  entered := by
    rw [entryKeys_store]
    exact h.entered.set member (by simp [Progress.hasEntry]) fun other hk => by simp [hk]
  announced := h.announced.keep (by rw [early]; rfl)
  once := h.once
  letsGo := h.letsGo.move (d := c.store key outcome) rfl rfl key nofun

/-- A task announces: its arrival is queued, which no arrival of its key was before. -/
theorem announce (h : Tended c started progress handled) (member : key ∈ started)
    (ready : progress key = .stored) :
    Tended (c.announce key) started (Function.update progress key .announced) handled := by
  have new : key ∉ handled ++ c.queued := by
    rw [h.announced key, ready]
    exact fun both => Bool.false_ne_true both.2
  rw [announce_of_listening h.listening]
  refine ⟨h.listening, h.distinct, h.counted, h.unstarted_update member _,
    h.flying.keep (by rw [ready]; rfl), h.entered.keep (by rw [ready]; rfl), ?_, ?_,
    h.letsGo.move (d := { c with queued := c.queued ++ [key] }) rfl rfl key nofun⟩
  · refine h.announced.set member (by simp [Progress.isAnnounced]) fun other hk => ?_
    simp [hk]
  · rw [← List.append_assoc, ← List.concat_eq_append]
    exact .concat new h.once

/-- A task departs: its key is in flight no longer. -/
theorem depart (h : Tended c started progress handled) (member : key ∈ started)
    (ready : progress key = .announced) :
    Tended (c.depart key) started (Function.update progress key .departed) handled where
  listening := h.listening
  distinct := h.distinct
  counted := h.counted
  unstarted := h.unstarted_update member _
  flying := by
    rw [pendingKeys_depart]
    exact h.flying.set member (by simp [Progress.isFlying]) fun other hk => by simp [hk]
  entered := h.entered.keep (by rw [ready]; rfl)
  announced := h.announced.keep (by rw [ready]; rfl)
  once := h.once
  letsGo := h.letsGo.move (d := c.depart key) rfl rfl key nofun

/-- A task relabels: its arrival was let go of once and now it is due no longer. Nothing else
shows. -/
theorem relabel (h : Tended c started progress handled) (member : key ∈ started)
    (ready : progress key = .departed) (due : key ∈ c.released) :
    Tended (c.relabelKey key) started (Function.update progress key .relabelled) handled where
  listening := (listening_relabelKey c key).trans h.listening
  distinct := h.distinct
  counted := (calls_relabelKey c key).trans h.counted
  unstarted := h.unstarted_update member _
  flying := by
    rw [pendingKeys, inFlight_relabelKey, ← pendingKeys]
    exact h.flying.keep (by rw [ready]; rfl)
  entered := by
    rw [entryKeys_relabelKey]
    exact h.entered.keep (by rw [ready]; rfl)
  announced := by
    rw [queued_relabelKey]
    exact h.announced.keep (by rw [ready]; rfl)
  once := by
    rw [queued_relabelKey]
    exact h.once
  letsGo := by
    have erased : (c.relabelKey key).released = c.released.erase key := by simp [relabelKey, due]
    have others : (c.relabelKey key).received = c.received := by simp [relabelKey, due]
    refine ⟨others.trans h.letsGo.received, fun other left => ?_, erased ▸ h.letsGo.once.erase key,
      fun other last => ?_⟩
    -- A key is let go of once, so what is left there is not the key relabelled now.
    · rw [erased, h.letsGo.once.mem_erase_iff] at left
      rw [Function.update_of_ne left.1]
      exact h.letsGo.due other left.2
    · by_cases hk : other = key
      · rw [hk]
        exact (h.letsGo.due key due).1
      · rw [Function.update_of_ne hk] at last
        exact h.letsGo.settled other last

/-- Every step of a task keeps the account. -/
theorem task (h : Tended c started progress handled) (member : key ∈ started) {step : TaskStep}
    (source : progress key = step.source) (ready : step.ready key c = true) :
    Tended (step.apply key c) started (Function.update progress key step.target) handled := by
  cases step with
  | store outcome => exact h.store member source outcome
  | announce => exact h.announce member source
  | depart => exact h.depart member source
  | relabel => exact h.relabel member source (of_decide_eq_true ready)

/-- Where nothing is in flight, all that a task can do is relabel. -/
theorem relabels_of_landed (h : Tended c started progress handled) (landed : c.inFlight = [])
    (member : key ∈ started) {step : TaskStep} (source : progress key = step.source) :
    step = .relabel := by
  have gone : (progress key).isFlying = false := by
    rw [← Bool.not_eq_true]
    intro on
    have pending := (h.flying key).mpr ⟨member, on⟩
    rw [pendingKeys, landed] at pending
    exact List.not_mem_nil pending
  -- The three steps before the last one are taken while the key is in flight.
  rw [source] at gone
  cases step with
  | relabel => rfl
  | store outcome => cases gone
  | announce => cases gone
  | depart => cases gone

/-- The owner takes the oldest arrival and lets go of it. -/
theorem handle (h : Tended c started progress handled) {rest : List String}
    (queue : c.queued = key :: rest) :
    Tended (c.receive.2.letGo key) started progress (handled ++ [key]) := by
  have taken : c.receive.2.letGo key
      = { c with queued := rest, released := c.released ++ [key] } := by
    simp [receive, letGo, queue, h.letsGo.received]
  -- The key goes from the front of the queue to the end of those handled.
  have same : handled ++ [key] ++ rest = handled ++ c.queued := by
    rw [queue, List.append_assoc, List.singleton_append]
  have new : key ∉ handled := by
    have once := h.once
    rw [queue] at once
    exact fun old => (List.nodup_append.mp once).2.2 key old key List.mem_cons_self rfl
  rw [taken]
  refine ⟨h.listening, h.distinct, h.counted, h.unstarted, h.flying, h.entered, ?_, ?_,
    h.letsGo.received, fun other left => ?_, ?_, fun other last => ?_⟩
  · exact same ▸ h.announced
  · exact same ▸ h.once
  · -- A task that has relabelled did so for an arrival handled before this one.
    rcases List.mem_append.mp left with old | now
    · exact ⟨List.mem_append_left _ (h.letsGo.due other old).1, (h.letsGo.due other old).2⟩
    · rw [List.mem_singleton.mp now]
      exact ⟨List.mem_append_right _ List.mem_cons_self, fun last => new (h.letsGo.settled key last)⟩
  · rw [← List.concat_eq_append]
    exact .concat (fun old => new (h.letsGo.due key old).1) h.letsGo.once
  · exact List.mem_append_left _ (h.letsGo.settled other last)

/-! ## What the tables tell -/

/-- A key whose arrival is still to be queued is in flight. -/
theorem pending_of_unannounced (h : Tended c started progress handled) (member : key ∈ started)
    (early : (progress key).isAnnounced = false) : key ∈ c.pendingKeys :=
  (h.flying key).mpr ⟨member, Progress.isFlying_of_unannounced early⟩

/-- While nothing is queued, the arrivals that are still to be queued are those not handled. -/
theorem unannounced_iff (h : Tended c started progress handled) (none : c.queued = []) :
    (∃ key ∈ c.pendingKeys, (progress key).isAnnounced = false) ↔ ∃ key ∈ started, key ∉ handled := by
  have announced (key : String) := h.announced key
  rw [none, List.append_nil] at announced
  -- What was announced is handled, for nothing is queued. So not announced is not handled.
  constructor
  · rintro ⟨key, pending, early⟩
    have member : key ∈ started := ((h.flying key).mp pending).1
    refine ⟨key, member, fun old => ?_⟩
    rw [((announced key).mp old).2] at early
    cases early
  · rintro ⟨key, member, new⟩
    have early : (progress key).isAnnounced = false := by
      rw [← Bool.not_eq_true]
      exact fun on => new ((announced key).mpr ⟨member, on⟩)
    exact ⟨key, h.pending_of_unannounced member early, early⟩

/-- Where nothing is in flight and nothing is queued, every fetch ever started has come to
its entry and its arrival was handled once. -/
theorem handled_of_idle (h : Tended c started progress handled) (landed : c.inFlight = [])
    (none : c.queued = []) :
    handled.Perm started ∧ ∀ key ∈ started, (c.get? key).isSome = true := by
  have once := h.once
  have announced (key : String) := h.announced key
  rw [none, List.append_nil] at once announced
  have departed (key : String) (member : key ∈ started) : key ∉ c.pendingKeys := by
    rw [pendingKeys, landed]
    exact List.not_mem_nil
  refine ⟨(List.perm_ext_iff_of_nodup once h.distinct).mpr fun key => ?_, fun key member => ?_⟩
  -- A task whose arrival nobody handled would have its key in flight.
  · refine ⟨fun old => ((announced key).mp old).1, fun member => ?_⟩
    by_contra new
    obtain ⟨other, pending, -⟩ := (h.unannounced_iff none).mpr ⟨key, member, new⟩
    exact departed other ((h.flying other).mp pending).1 pending
  · -- A key known that is not in flight has an entry.
    have known := (h.knows_iff key).mpr member
    rw [Cache.knows_iff, keys, List.mem_append, or_iff_left (departed key member)] at known
    exact (c.get?_isSome_iff key).mpr known

end Tended

end Linework.Cache
