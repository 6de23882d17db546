import Linework.Proofs.Reference.Tables
import Mathlib.Logic.Relation
import Mathlib.Order.Defs.PartialOrder

/-!
# `Linework.Proofs.Reference.Lifecycle`: what can become of a key

A key is absent, in flight, fresh, cached or failed (`Stage`). The arrows between
the stages are `Stage.Moves`, and `≤` on stages is their reflexive and transitive
closure. It is a partial order (`Stage.rank` grows along every arrow), so a key
that moves along it can never come back.

`Step` lists the operations on a cache, one constructor each, so that a history
is a list of steps in any order, on any keys, with any outcomes. The theorems:

* `stage_le_apply`: one step leaves every key where it is or moves it forward.
* `WellKept.apply`: one step keeps the tables in order.
* `starts_perm`: the keys that requests were answered yes for, in a history, are
  the keys listed after it. So each key is fetched once.
* `lifecycle`: the whole account, for every history from the empty cache and
  every continuation of it.
-/

set_option autoImplicit false

namespace Linework.Cache

open List (Perm)
open Relation (ReflTransGen)

/-! ## Stages -/

/-- How far a key has come. -/
inductive Stage where
  | absent
  | inFlight
  | fresh (picture : Picture)
  | cached (picture : Picture)
  | failed (reason : String)
  deriving DecidableEq, Repr

namespace Stage

/-- The stage of a key that has an entry. -/
def ofState : EntryState → Stage
  | .downloaded picture true => fresh picture
  | .downloaded picture false => cached picture
  | .failed reason => failed reason

/-- The arrows between stages. -/
inductive Moves : Stage → Stage → Prop
  | depart : Moves absent inFlight
  | arrive (picture : Picture) : Moves inFlight (fresh picture)
  | age (picture : Picture) : Moves (fresh picture) (cached picture)
  | fail (reason : String) : Moves inFlight (failed reason)

/-- How many arrows lead to a stage. -/
def rank : Stage → Nat
  | absent => 0
  | inFlight => 1
  | fresh _ => 2
  | failed _ => 2
  | cached _ => 3

/-- Every arrow leads to a stage of higher rank. -/
theorem Moves.rank_lt {a b : Stage} (h : Moves a b) : a.rank < b.rank := by
  cases h <;> simp [rank]

/-- Along arrows a key stays where it is or comes to a stage of higher rank. So arrows do not lead
in a circle. -/
theorem eq_or_rank_lt {a b : Stage} (h : ReflTransGen Moves a b) : a = b ∨ a.rank < b.rank := by
  induction h with
  | refl => exact .inl rfl
  | tail _ move ih =>
    right
    rcases ih with rfl | lt
    · exact move.rank_lt
    · exact Nat.lt_trans lt move.rank_lt

/-- One stage comes before another if arrows lead from it to the other. -/
instance : PartialOrder Stage where
  le := ReflTransGen Moves
  le_refl _ := .refl
  le_trans _ _ _ := .trans
  le_antisymm a b hab hba := by
    rcases eq_or_rank_lt hab with rfl | lt
    · rfl
    · rcases eq_or_rank_lt hba with rfl | gt
      · rfl
      · omega

/-- An arrow leads to a later stage. -/
theorem le_of_moves {a b : Stage} (h : Moves a b) : a ≤ b := ReflTransGen.single h

/-- The entry of a key at a stage. -/
def state? : Stage → Option EntryState
  | absent => none
  | inFlight => none
  | fresh picture => some (.downloaded picture true)
  | cached picture => some (.downloaded picture false)
  | failed reason => some (.failed reason)

/-- A stage made of an entry gives the entry back. -/
@[simp] theorem state?_ofState (state : EntryState) : (ofState state).state? = some state := by
  match state with
  | .downloaded _ true => rfl
  | .downloaded _ false => rfl
  | .failed _ => rfl

/-- A fetch in flight may end in any way. -/
theorem inFlight_le_ofState (state : EntryState) : inFlight ≤ ofState state := by
  match state with
  | .downloaded picture true => exact le_of_moves (.arrive picture)
  | .downloaded picture false =>
    exact (le_of_moves (.arrive picture)).trans (le_of_moves (.age picture))
  | .failed reason => exact le_of_moves (.fail reason)

/-- Settling an entry moves its stage along an arrow, or not at all. -/
theorem ofState_le_settled (state : EntryState) : ofState state ≤ ofState state.settled := by
  match state with
  | .downloaded picture true => exact le_of_moves (.age picture)
  | .downloaded _ false => exact le_rfl
  | .failed _ => exact le_rfl

/-- From the stage of an entry on there is only the entry, and the entry settled. -/
theorem eq_of_ofState_le {state : EntryState} {b : Stage} (h : ofState state ≤ b) :
    b = ofState state ∨ b = ofState state.settled := by
  change ReflTransGen Moves (ofState state) b at h
  induction h with
  | refl => exact .inl rfl
  | tail _ move ih =>
    right
    -- Only a fresh picture has an arrow out of it.
    match state, ih with
    | .downloaded _ true, .inl e => subst e; cases move; rfl
    | .downloaded _ true, .inr e => subst e; cases move
    | .downloaded _ false, .inl e => subst e; cases move
    | .downloaded _ false, .inr e => subst e; cases move
    | .failed _, .inl e => subst e; cases move
    | .failed _, .inr e => subst e; cases move

end Stage

/-- The stage of a key. -/
def stage (c : Cache) (key : String) : Stage :=
  match c.get? key with
  | some state => .ofState state
  | none => if c.isPending key then .inFlight else .absent

/-- A key with an entry is at the stage of the entry, whether it is in flight too or not. -/
theorem stage_of_get? {c : Cache} {key : String} {state : EntryState}
    (h : c.get? key = some state) : c.stage key = .ofState state := by
  simp [stage, h]

/-- A key without an entry is in flight if it is known, and absent otherwise. -/
theorem stage_of_get?_none {c : Cache} {key : String} (h : c.get? key = none) :
    c.stage key = if c.knows key then .inFlight else .absent := by
  simp [stage, knows, h]

/-- The stage of a key tells its entry. -/
theorem state?_stage (c : Cache) (key : String) : (c.stage key).state? = c.get? key := by
  cases h : c.get? key with
  | some state => rw [stage_of_get? h, Stage.state?_ofState]
  | none =>
    rw [stage_of_get?_none h]
    split <;> rfl

/-- The stages depend on the two tables only. -/
theorem stage_congr {c d : Cache} {key : String} (entry : c.get? key = d.get? key)
    (known : c.knows key = d.knows key) : c.stage key = d.stage key := by
  cases h : d.get? key with
  | some state => rw [stage_of_get? h, stage_of_get? (entry.trans h)]
  | none => rw [stage_of_get?_none h, stage_of_get?_none (entry.trans h), known]

/-! ## What the three operations on the tables do to a stage -/

/-- A request moves one key at most, and it moves it out of absence. -/
theorem stage_le_request (c : Cache) (key url other : String) :
    c.stage other ≤ (c.request key url).stage other := by
  cases h : c.get? other with
  | some state => rw [stage_of_get? h, stage_of_get? (by simpa using h)]
  | none =>
    -- Without an entry the stage tells whether the key is known.
    rw [stage_of_get?_none h, stage_of_get?_none (by simpa using h), knows_request]
    cases c.knows other with
    | true => simp
    | false =>
      cases decide (other = key) with
      | true => simpa using Stage.le_of_moves .depart
      | false => simp

/-- The end of a fetch moves its own key to the stage of its outcome. The other keys stay. -/
theorem stage_le_finish {c : Cache} (h : WellKept c) (key : String)
    (outcome : Except Failure Picture) (other : String) :
    c.stage other ≤ (c.finish key outcome).stage other := by
  have found := get?_finish c key other outcome
  cases hg : c.get? other with
  | some state =>
    rw [hg, Option.some_or] at found
    rw [stage_of_get? hg, stage_of_get? found]
  | none =>
    rw [hg, Option.none_or] at found
    split at found
    · rename_i ended
      -- It is the key's own fetch that ended.
      obtain ⟨pending, rfl⟩ := ended
      rw [stage_of_get?_none hg, knows, pending, Bool.or_true, if_pos rfl, stage_of_get? found]
      exact Stage.inFlight_le_ofState _
    · have known : c.knows other = (c.finish key outcome).knows other := by
        rw [Bool.eq_iff_iff, knows_iff, knows_iff, (keys_finish_perm h.distinct key outcome).mem_iff]
      rw [stage_congr (hg.trans found.symm) known]

/-- Relabelling takes the freshness of one picture at most, which is an arrow. -/
theorem stage_le_relabelKey (c : Cache) (key other : String) :
    c.stage other ≤ (c.relabelKey key).stage other := by
  have found := get?_relabelKey c key other
  have known : c.knows other = (c.relabelKey key).knows other := by
    rw [Bool.eq_iff_iff, knows_iff, knows_iff, keys_relabelKey]
  split at found
  · cases hg : c.get? other with
    | some state =>
      rw [hg, Option.map_some] at found
      rw [stage_of_get? hg, stage_of_get? found]
      exact Stage.ofState_le_settled state
    | none =>
      rw [hg, Option.map_none] at found
      rw [stage_congr (hg.trans found.symm) known]
  · rw [stage_congr found.symm known]

/-! ## Histories -/

/-- One operation on a cache. A picture imported under a name is a request for that
name, and an arrival is let go of by acknowledging it as well as by dropping it. -/
inductive Step where
  | request (key url : String)
  | finish (key : String) (outcome : Except Failure Picture)
  | receive
  | letGo (key : String)
  | detach
  | relabel (key : String)
  | hold (url : String)
  | ungate (url : String)
  | keepBack (key : String)

namespace Step

/-- Does what a step says. -/
def apply : Step → Cache → Cache
  | request key url, c => c.request key url
  | finish key outcome, c => c.finish key outcome
  | receive, c => c.receive.2
  | letGo key, c => c.letGo key
  | detach, c => c.detach
  | relabel key, c => c.relabelKey key
  | hold url, c => c.hold url
  | ungate url, c => c.ungate url
  | keepBack key, c => c.keepBack key

/-- The key whose fetch a step starts: that of a request which is answered yes. -/
def start? (c : Cache) : Step → Option String
  | request key url => if (c.ask key url).1 then some key else none
  | _ => none

end Step

/-- The cache after a history. -/
def run (c : Cache) (steps : List Step) : Cache :=
  steps.foldl (fun c step => step.apply c) c

/-- The keys whose fetches a history starts, in order. -/
def starts : Cache → List Step → List String
  | _, [] => []
  | c, step :: rest => (step.start? c).toList ++ starts (step.apply c) rest

/-! ## One step -/

/-- A step that is no request, no end of a fetch and no relabelling leaves the
tables alone. -/
theorem Step.sameTables_apply (c : Cache) :
    ∀ step : Step, (∃ key url, step = .request key url) ∨
      (∃ key outcome, step = .finish key outcome) ∨ (∃ key, step = .relabel key) ∨
        SameTables c (step.apply c)
  | request key url => .inl ⟨key, url, rfl⟩
  | finish key outcome => .inr (.inl ⟨key, outcome, rfl⟩)
  | relabel key => .inr (.inr (.inl ⟨key, rfl⟩))
  | receive => .inr (.inr (.inr (sameTables_receive c)))
  | letGo key => .inr (.inr (.inr (sameTables_letGo c key)))
  | detach => .inr (.inr (.inr (sameTables_detach c)))
  | hold url => .inr (.inr (.inr (sameTables_hold c url)))
  | ungate url => .inr (.inr (.inr (sameTables_ungate c url)))
  | keepBack key => .inr (.inr (.inr (sameTables_keepBack c key)))

/-- Every step keeps the tables in order. -/
theorem WellKept.apply {c : Cache} (h : WellKept c) (step : Step) : WellKept (step.apply c) := by
  rcases step.sameTables_apply c with ⟨key, url, rfl⟩ | ⟨key, outcome, rfl⟩ | ⟨key, rfl⟩ | same
  · exact h.request key url
  · exact h.finish key outcome
  · exact h.relabelKey key
  · exact h.of_sameTables same

/-- Every step leaves every key where it is or moves it forward. -/
theorem stage_le_apply {c : Cache} (h : WellKept c) (step : Step) (key : String) :
    c.stage key ≤ (step.apply c).stage key := by
  rcases step.sameTables_apply c with ⟨other, url, rfl⟩ | ⟨other, outcome, rfl⟩ | ⟨other, rfl⟩ | same
  · exact stage_le_request c other url key
  · exact stage_le_finish h other outcome key
  · exact stage_le_relabelKey c other key
  · exact le_of_eq (stage_congr (same.get?_eq key) (same.knows_eq key)).symm

/-- The tables list one key more exactly when the step started a fetch, and it is
the key of that fetch. -/
theorem keys_apply_perm {c : Cache} (h : WellKept c) (step : Step) :
    Perm (step.apply c).keys ((step.start? c).toList ++ c.keys) := by
  -- Only a request starts a fetch. The end of a fetch moves a key from one table to the other,
  -- and the other steps list the same keys.
  cases step with
  | request key url =>
    refine (keys_request_perm c key url).trans (.of_eq ?_)
    rw [Step.start?, ask_fst]
    cases c.knows key <;> rfl
  | finish key outcome => exact keys_finish_perm h.distinct key outcome
  | relabel key => exact .of_eq (keys_relabelKey c key)
  | receive => exact .of_eq (sameTables_receive c).keys_eq
  | letGo key => exact .of_eq (sameTables_letGo c key).keys_eq
  | detach => exact .of_eq (sameTables_detach c).keys_eq
  | hold url => exact .of_eq (sameTables_hold c url).keys_eq
  | ungate url => exact .of_eq (sameTables_ungate c url).keys_eq
  | keepBack key => exact .of_eq (sameTables_keepBack c key).keys_eq

/-! ## Whole histories -/

/-- A history keeps the tables in order. -/
theorem WellKept.run {c : Cache} (h : WellKept c) (steps : List Step) : WellKept (run c steps) := by
  induction steps generalizing c with
  | nil => exact h
  | cons step rest ih => exact ih (h.apply step)

/-- Over a history every key stays where it is or moves forward. -/
theorem stage_le_run {c : Cache} (h : WellKept c) (steps : List Step) (key : String) :
    c.stage key ≤ (run c steps).stage key := by
  induction steps generalizing c with
  | nil => exact le_rfl
  | cons step rest ih => exact (stage_le_apply h step key).trans (ih (h.apply step))

/-- The keys listed after a history are those listed before and those that it
started fetches for. -/
theorem starts_perm {c : Cache} (h : WellKept c) (steps : List Step) :
    Perm (starts c steps ++ c.keys) (run c steps).keys := by
  induction steps generalizing c with
  | nil => exact .refl _
  | cons step rest ih =>
    have first := (keys_apply_perm h step).symm
    rw [starts, List.append_assoc]
    -- The key that the first step started moves past the later ones, to where it is listed.
    calc Perm ((step.start? c).toList ++ (starts (step.apply c) rest ++ c.keys))
          (starts (step.apply c) rest ++ ((step.start? c).toList ++ c.keys)) :=
            List.perm_append_comm_assoc _ _ _
      Perm _ (starts (step.apply c) rest ++ (step.apply c).keys) := first.append_left _
      Perm _ (run (step.apply c) rest).keys := ih (h.apply step)

/-- What was known under a key stays known, and only settles. -/
theorem get?_run {c : Cache} (h : WellKept c) (steps : List Step) {key : String}
    {state : EntryState} (entry : c.get? key = some state) :
    (run c steps).get? key = some state ∨ (run c steps).get? key = some state.settled := by
  have later := stage_le_run h steps key
  -- The stage tells the entry, and from the stage of an entry there is one way to go.
  rw [stage_of_get? entry] at later
  rw [← state?_stage]
  rcases Stage.eq_of_ofState_le later with e | e
  · exact .inl (by rw [e, Stage.state?_ofState])
  · exact .inr (by rw [e, Stage.state?_ofState])

/-- The life of a key, for every history from the empty cache and every
continuation of it. The key only moves forward, and what is known under it is
never lost and never changes but for its freshness. It stands in at most one of the
two tables. A request for it is answered yes if it stands in neither, which happens
once if ever. The fetches ever started are as many as the keys in the tables. -/
theorem lifecycle (before after : List Step) (key : String) :
    let c := run .empty before
    let d := run c after
    c.stage key ≤ d.stage key ∧
    (∀ state, c.get? key = some state →
      d.get? key = some state ∨ d.get? key = some state.settled) ∧
    ¬((c.get? key).isSome = true ∧ c.isPending key = true) ∧
    (∀ url, (c.ask key url).1 = true ↔ c.get? key = none ∧ c.isPending key = false) ∧
    (starts .empty before).count key = (if c.knows key then 1 else 0) ∧
    (starts .empty before).length = c.calls ∧
    c.calls = c.entries.length + c.inFlight.length ∧
    (c.entries.map Entry.key).Nodup ∧ (c.inFlight.map Fetch.key).Nodup := by
  intro c d
  have kept : WellKept c := wellKept_empty.run before
  -- The empty cache lists nothing, so what a history started is all that is listed after it.
  have started : Perm (starts .empty before) c.keys := by
    have all := starts_perm wellKept_empty before
    rwa [show empty.keys = [] from rfl, List.append_nil] at all
  refine ⟨stage_le_run kept after key, fun _ => get?_run kept after, kept.disjoint key, ?_, ?_, ?_,
    ?_, ?_, ?_⟩
  · intro url
    rw [ask_fst, Bool.not_eq_true', knows, Bool.or_eq_false_iff, Option.isSome_eq_false_iff,
      Option.isNone_iff_eq_none]
  · rw [started.count_eq, List.Nodup.count kept.distinct]
    simp only [← knows_iff]
  · rw [started.length_eq, kept.counted]
  · rw [kept.counted, keys, List.length_append, entryKeys, pendingKeys, List.length_map,
      List.length_map]
  · exact (List.nodup_append.mp kept.distinct).1
  · exact (List.nodup_append.mp kept.distinct).2.1

end Linework.Cache
