import Linework.Proofs.Reference.Task

/-!
# `Linework.Proofs.Reference.InHand`: arrivals received and not let go of

An owner has an arrival in hand from its receipt to its release. Who looks at the cache in
between finds it in neither queue. But the tasks cannot tell an arrival in hand from one that is
queued still, for neither was let go of. So what `Tended` says is told of the cache with
everything in hand put back at the head of the queue (`unreceived`): receiving does not show there
(`unreceived_receive`), and letting go is handling the head of the queue
(`unreceived_letGo`).

What the tasks do shows in the entries, and only forward (`onward_task`). An entry is relabelled by
the last step of its own task and by nothing else (`Labelled.task`), and that step waits for
the release. So a picture whose arrival is queued or in hand is not labelled as cached
(`Tended.of_queued`).
-/

set_option autoImplicit false

namespace Linework.Cache

/-! ## An arrival in hand -/

/-- The cache as if nothing had been received that was not let go of. -/
def unreceived (c : Cache) : Cache :=
  { c with queued := c.received ++ c.queued, received := [] }

/-- Where nothing is in hand there is nothing to put back. -/
theorem unreceived_of_none {c : Cache} (none : c.received = []) : c.unreceived = c := by
  simp only [unreceived, none, List.nil_append]
  rw [← none]

/-- A request does not care where an arrival is. -/
theorem unreceived_request (c : Cache) (key url : String) :
    (c.request key url).unreceived = c.unreceived.request key url := by
  cases known : c.knows key with
  | true =>
    have same : c.unreceived.knows key = true := known
    rw [request_of_knows known, request_of_knows same]
  | false =>
    have same : c.unreceived.knows key = false := known
    rw [request_of_unknown known, request_of_unknown same]
    rfl

/-- Keys asked for are asked for as well with everything put back. -/
theorem Asks.unreceived {c d : Cache} (h : Asks c d) : Asks c.unreceived d.unreceived := by
  induction h with
  | refl => exact .refl
  | tail _ step ih =>
    obtain ⟨key, url, rfl⟩ := step
    exact ih.tail ⟨key, url, unreceived_request _ key url⟩

/-- Requests put nothing in the owner's hand. -/
theorem Asks.received_eq {c d : Cache} (h : Asks c d) : d.received = c.received := by
  induction h with
  | refl => rfl
  | @tail d e _ step ih =>
    obtain ⟨key, url, rfl⟩ := step
    rcases d.request_eq_or key url with same | launched
    · rw [same, ih]
    · rw [launched]
      exact ih

/-- Requests show in no lookup. -/
theorem Asks.get?_eq {c d : Cache} (h : Asks c d) (key : String) : d.get? key = c.get? key := by
  induction h with
  | refl => rfl
  | tail _ step ih =>
    obtain ⟨other, url, rfl⟩ := step
    rw [get?_request, ih]

/-- A step of a task does the same with everything put back. -/
theorem unreceived_task (c : Cache) (key : String) (step : TaskStep) :
    (step.apply key c).unreceived = step.apply key c.unreceived := by
  cases step with
  | store outcome => rfl
  | depart => rfl
  | announce =>
    -- What is in hand stands before all that is queued, so also before what is queued now.
    by_cases listens : c.listening = true
    · simp [TaskStep.apply, Cache.announce, unreceived, listens]
    · simp [TaskStep.apply, Cache.announce, unreceived, listens]
  | relabel =>
    by_cases due : key ∈ c.released
    · simp [TaskStep.apply, relabelKey, unreceived, due]
    · simp [TaskStep.apply, relabelKey, unreceived, due]

/-- No step of a task looks at what is in hand. -/
theorem received_task (c : Cache) (key : String) (step : TaskStep) :
    (step.apply key c).received = c.received := by
  cases step with
  | store outcome => rfl
  | depart => rfl
  | announce =>
    show (c.announce key).received = c.received
    unfold Cache.announce
    split <;> rfl
  | relabel =>
    show (c.relabelKey key).received = c.received
    unfold relabelKey
    split <;> rfl

section

variable {c : Cache} {key : String} {rest : List String}

/-- Whoever had nothing in hand has the oldest arrival in hand after a receipt. -/
theorem received_receive (none : c.received = []) (queue : c.queued = key :: rest) :
    c.receive.2.received = [key] := by
  simp [receive, queue, none]

/-- To the tasks a receipt is nothing: the arrival goes from the head of the queue back to the
head of the queue. -/
theorem unreceived_receive (none : c.received = []) (queue : c.queued = key :: rest) :
    c.receive.2.unreceived = c.unreceived := by
  simp [receive, unreceived, queue, none]

/-- Whoever had one arrival in hand has none after letting go of it. -/
theorem received_letGo (inHand : c.received = [key]) : (c.letGo key).received = [] := by
  simp [letGo, inHand]

/-- Letting go of what is in hand is handling what is at the head of the queue. -/
theorem unreceived_letGo (inHand : c.received = [key]) :
    (c.letGo key).unreceived = c.unreceived.receive.2.letGo key := by
  simp [letGo, receive, unreceived, inHand]

end

/-! ## What is known along the way -/

/-- What was known is known, and at most its label is another. -/
def Onward (c d : Cache) : Prop :=
  ∀ key state, c.get? key = some state → d.get? key = some state ∨ d.get? key = some state.settled

/-- Where every lookup finds the same, what was known is known. -/
theorem Onward.of_get? {c d : Cache} (same : ∀ key, d.get? key = c.get? key) : c.Onward d :=
  fun key _ found => .inl ((same key).trans found)

/-- A stored entry stands last, so it is found only where there was none. -/
theorem get?_store (c : Cache) (key other : String) (outcome : Except Failure Picture) :
    (c.store key outcome).get? other
      = (c.get? other).or (if key = other then some (.ofOutcome true outcome) else none) := by
  rw [get?, Cache.store, List.find?_append, Option.map_or, ← get?]
  by_cases hk : key = other
  · simp [hk]
  · simp [hk]

/-- An arrival that is queued shows in no lookup. -/
theorem get?_announce (c : Cache) (key other : String) :
    (c.announce key).get? other = c.get? other := by
  unfold Cache.announce
  split <;> rfl

/-- No step of a task takes back what was known. -/
theorem onward_task (c : Cache) (key : String) (step : TaskStep) : c.Onward (step.apply key c) := by
  cases step with
  | store outcome =>
    intro other state found
    left
    rw [TaskStep.apply, get?_store, found, Option.some_or]
  | announce => exact .of_get? (c.get?_announce key)
  | depart => exact .of_get? fun _ => rfl
  | relabel =>
    intro other state found
    rw [TaskStep.apply, get?_relabelKey, found]
    split
    · exact .inr rfl
    · exact .inl rfl

/-- An arrival that is queued has its entry, and its task has not relabelled it. -/
theorem Tended.of_queued {c : Cache} {started handled : List String} {progress : String → Progress}
    (h : Tended c started progress handled) {key : String} (queued : key ∈ c.queued) :
    (∃ state, c.get? key = some state) ∧ progress key ≠ .relabelled := by
  obtain ⟨member, announced⟩ := (h.announced key).mp (List.mem_append_right _ queued)
  have entered : (progress key).hasEntry = true := by
    cases progress : progress key with
    | fetching =>
      rw [progress] at announced
      cases announced
    | _ => rfl
  refine ⟨?_, fun last => ?_⟩
  · rw [← Option.isSome_iff_exists, get?_isSome_iff]
    exact (h.entered key).mpr ⟨member, entered⟩
  · -- What was relabelled was handled, and no arrival is handled and queued.
    exact (List.nodup_append.mp h.once).2.2 key (h.letsGo.settled key last) key queued rfl

/-- The tasks see of a cache its tables and what is queued, in hand and let go of. -/
theorem Tended.of_sameTables {c d : Cache} {started handled : List String}
    {progress : String → Progress} (h : Tended c started progress handled) (same : SameTables c d)
    (listening : d.listening = c.listening) (queued : d.queued = c.queued)
    (received : d.received = c.received) (released : d.released = c.released) :
    Tended d started progress handled where
  listening := listening.trans h.listening
  distinct := h.distinct
  counted := same.calls.trans h.counted
  unstarted := h.unstarted
  flying := same.pending ▸ h.flying
  entered := by
    rw [entryKeys, same.entries]
    exact h.entered
  announced := queued ▸ h.announced
  once := queued ▸ h.once
  letsGo := ⟨received.trans h.letsGo.received, released ▸ h.letsGo.due, released ▸ h.letsGo.once,
    h.letsGo.settled⟩

/-- A picture is labelled as cached by its task only. -/
def Labelled (c : Cache) (progress : String → Progress) : Prop :=
  ∀ key picture, c.get? key = some (.downloaded picture false) → progress key = .relabelled

/-- Where every lookup finds the same, the labels are the same. -/
theorem Labelled.of_get? {c d : Cache} {progress : String → Progress} (h : c.Labelled progress)
    (same : ∀ key, d.get? key = c.get? key) : d.Labelled progress :=
  fun key picture found => h key picture ((same key).symm.trans found)

/-- A step of a task puts a label only if it is the last one, and only on the picture of its own
key. -/
theorem Labelled.task {c : Cache} {progress : String → Progress} (h : c.Labelled progress)
    {key : String} {step : TaskStep} (source : progress key = step.source) :
    (step.apply key c).Labelled (Function.update progress key step.target) := by
  intro other picture found
  by_cases hk : other = key
  · subst hk
    rw [Function.update_self]
    -- Only the last step of a task comes upon a label, or makes one.
    cases step with
    | relabel => rfl
    | store outcome =>
      rw [TaskStep.apply, get?_store, if_pos rfl, Option.or_eq_some_iff] at found
      rcases found with old | ⟨-, new⟩
      · rw [h other picture old] at source
        cases source
      · cases outcome <;> cases new
    | announce =>
      rw [TaskStep.apply, get?_announce] at found
      rw [h other picture found] at source
      cases source
    | depart =>
      rw [h other picture found] at source
      cases source
  · rw [Function.update_of_ne hk]
    refine h other picture ?_
    -- The entries of the other keys are as they were.
    cases step with
    | store outcome =>
      rwa [TaskStep.apply, get?_store, if_neg (Ne.symm hk), Option.or_none] at found
    | announce => rwa [TaskStep.apply, get?_announce] at found
    | depart => exact found
    | relabel =>
      rwa [TaskStep.apply, get?_relabelKey, if_neg fun both => hk both.2.symm] at found

end Linework.Cache
