import Linework.Proofs.Reference.Tables
import Mathlib.Logic.Relation

/-!
# `Linework.Proofs.Reference.Drift`: what happens to a cache by itself

Between the owner's operations fetches end, pictures are relabelled, addresses are held and
released, and single fetches are kept back. `Drift` lists these as single steps, so that an order
of them is a chain of steps. `pump` and `release` are such chains (`pump_drifts`,
`release_drifts`), which is all that has to be known of them.

Drifting starts no fetch (`Drift.startsNothing`). To a cache that listens it queues an
arrival for each fetch that ends (`Drift.queued_eq`), and where none ends it changes the
freshness of pictures at most (`Drift.outcome?_of_queued`).
-/

set_option autoImplicit false

namespace Linework.Cache

open List (Perm)
open Relation (ReflTransGen)

/-- One step of a cache that is left to itself. -/
inductive Drift (resolve : Resolver) : Cache → Cache → Prop
  | finish {c : Cache} {f : Fetch} (hf : f ∈ c.inFlight) :
      Drift resolve c (c.finish f.key (resolve f.url))
  | relabel (c : Cache) (key : String) : Drift resolve c (c.relabelKey key)
  | hold (c : Cache) (url : String) : Drift resolve c (c.hold url)
  | ungate (c : Cache) (url : String) : Drift resolve c (c.ungate url)
  | keepBack (c : Cache) (key : String) : Drift resolve c (c.keepBack key)

variable {resolve : Resolver}

/-- The second cache has no fetch that the first one had not started. -/
structure StartsNothing (c d : Cache) : Prop where
  calls : d.calls = c.calls
  pending : ∀ key, d.isPending key = true → c.isPending key = true

/-- A cache that stays as it is starts nothing. -/
theorem StartsNothing.refl (c : Cache) : StartsNothing c c := ⟨rfl, fun _ h => h⟩

/-- Nothing is started over two stretches of which neither starts anything. -/
theorem StartsNothing.trans {b c d : Cache} (h : StartsNothing b c) (h' : StartsNothing c d) :
    StartsNothing b d :=
  ⟨h'.calls.trans h.calls, fun key pending => h.pending key (h'.pending key pending)⟩

/-- What leaves the tables alone starts nothing, for a fetch shows in the table of those in
flight. -/
theorem SameTables.startsNothing {c d : Cache} (same : SameTables c d) : StartsNothing c d :=
  ⟨same.calls, fun key pending => same.isPending_eq key ▸ pending⟩

/-! ## What a step does -/

/-- A cache that is left to itself starts no fetch. Only a request does. -/
theorem Drift.startsNothing {c d : Cache} (h : Drift resolve c d) : StartsNothing c d := by
  cases h with
  | finish hf =>
    refine ⟨calls_finish _ _ _, fun key pending => ?_⟩
    rw [isPending_finish, Bool.and_eq_true] at pending
    exact pending.1
  | relabel key =>
    refine ⟨calls_relabelKey c key, fun other pending => ?_⟩
    rwa [isPending, inFlight_relabelKey, ← isPending] at pending
  | hold url => exact (sameTables_hold c url).startsNothing
  | ungate url => exact (sameTables_ungate c url).startsNothing
  | keepBack key => exact (sameTables_keepBack c key).startsNothing

/-- Whether the owner listens is for the owner to say. -/
theorem Drift.listening_eq {c d : Cache} (h : Drift resolve c d) : d.listening = c.listening := by
  cases h with
  | finish hf => exact listening_finish _ _ _
  | relabel key => exact listening_relabelKey c key
  | hold url => rfl
  | ungate url => rfl
  | keepBack key => rfl

/-- Left to itself a cache keeps its tables well. -/
theorem Drift.wellKept {c d : Cache} (h : Drift resolve c d) (kept : WellKept c) : WellKept d := by
  cases h with
  | finish hf => exact kept.finish _ _
  | relabel key => exact kept.relabelKey key
  | hold url => exact kept.of_sameTables (sameTables_hold c url)
  | ungate url => exact kept.of_sameTables (sameTables_ungate c url)
  | keepBack key => exact kept.of_sameTables (sameTables_keepBack c key)

/-- A step of a listening cache after which no arrival is queued ended no fetch, so it
changed the freshness of pictures at most. -/
theorem Drift.outcome?_of_queued {c d : Cache} (h : Drift resolve c d) (listens : c.listening = true)
    (none : d.queued = []) :
    c.queued = [] ∧ ∀ key, c.outcome? key = d.outcome? key := by
  cases h with
  | finish hf =>
    -- The end of a fetch queues an arrival, and none is queued.
    rw [queued_finish (isPending_of_mem hf) listens] at none
    exact absurd none (List.append_ne_nil_of_right_ne_nil _ (List.cons_ne_nil _ _))
  | relabel key => exact ⟨c.queued_relabelKey key ▸ none, fun _ => (outcome?_relabelKey c key _).symm⟩
  | hold url => exact ⟨none, fun _ => rfl⟩
  | ungate url => exact ⟨none, fun _ => rfl⟩
  | keepBack key => exact ⟨none, fun _ => rfl⟩

/-- A step of a listening cache queues an arrival for each entry that it makes. -/
theorem Drift.queued_eq {c d : Cache} (h : Drift resolve c d) (listens : c.listening = true) :
    d.queued.length + c.entries.length = c.queued.length + d.entries.length := by
  cases h with
  | finish hf =>
    have pending := isPending_of_mem hf
    rw [queued_finish pending listens, entries_finish pending, List.length_append,
      List.length_append, List.length_singleton, List.length_singleton]
    omega
  | relabel key =>
    -- The entries are as many as their keys, which stay.
    have same := congrArg List.length (entryKeys_relabelKey c key)
    rw [entryKeys, entryKeys, List.length_map, List.length_map] at same
    rw [queued_relabelKey, same]
  | hold url => rfl
  | ungate url => rfl
  | keepBack key => rfl

/-! ## Fetches that are kept back -/

/-- The end of a fetch takes its key out of flight, and no other. -/
theorem inFlight_finish_eq_filter (c : Cache) (key : String) (outcome : Except Failure Picture) :
    (c.finish key outcome).inFlight = c.inFlight.filter fun f => f.key ≠ key := by
  cases pending : c.isPending key with
  | true => exact inFlight_finish pending outcome
  | false =>
    -- No fetch has the key, so nothing is filtered away.
    rw [finish_of_not_pending pending, eq_comm, List.filter_eq_self]
    intro f hf
    rw [decide_eq_true_eq]
    rintro rfl
    rw [isPending_of_mem hf] at pending
    cases pending

/-- The open fetches after one ended are those of other keys. -/
theorem openFetches_finish (c : Cache) (key : String) (outcome : Except Failure Picture) :
    (c.finish key outcome).openFetches = c.openFetches.filter fun f => f.key ≠ key := by
  rw [openFetches, inFlight_finish_eq_filter, openFetches, List.filter_comm]

/-- A fetch that ends was one of those in flight, and the others are. -/
theorem WellKept.inFlight_finish_perm {c : Cache} (kept : WellKept c) {f : Fetch}
    (hf : f ∈ c.inFlight) (outcome : Except Failure Picture) :
    Perm c.inFlight (f :: (c.finish f.key outcome).inFlight) := by
  have distinct : c.inFlight.Nodup := (List.nodup_append.mp kept.distinct).2.1.of_map Fetch.key
  -- No other fetch has the key, so dropping the key drops this one fetch.
  have others : (c.finish f.key outcome).inFlight = c.inFlight.erase f := by
    rw [inFlight_finish_eq_filter, distinct.erase_eq_filter]
    refine List.filter_congr fun g hg => ?_
    rw [Bool.eq_iff_iff, decide_eq_true_eq, bne_iff_ne, not_iff_not]
    exact ⟨fun same => kept.fetch_unique hg hf same, fun same => by rw [same]⟩
  rw [others]
  exact List.perm_cons_erase hf

/-! ## Pumping -/

/-- One step of the pictures while somebody waits for them: a fetch ends that nothing keeps
back, or a picture is relabelled. -/
inductive Drive (resolve : Resolver) : Cache → Cache → Prop
  | finish {c : Cache} {f : Fetch} (hf : f ∈ c.inFlight) (free : f.gated = false) :
      Drive resolve c (c.finish f.key (resolve f.url))
  | relabel (c : Cache) (key : String) : Drive resolve c (c.relabelKey key)

/-- What happens while somebody waits happens at other times too. -/
theorem Drive.drift {c d : Cache} (h : Drive resolve c d) : Drift resolve c d := by
  cases h with
  | finish hf free => exact .finish hf
  | relabel key => exact .relabel c key

/-- A step of a listening cache queues an arrival for each open fetch that it ends. -/
theorem Drive.queued_add_open {c d : Cache} (h : Drive resolve c d) (kept : WellKept c)
    (listens : c.listening = true) :
    d.queued.length + d.openFetches.length = c.queued.length + c.openFetches.length := by
  cases h with
  | @finish f hf free =>
    have fewer := ((kept.inFlight_finish_perm hf (resolve f.url)).filter fun g => !g.gated).length_eq
    rw [List.filter_cons_of_pos (by simp [free]), List.length_cons] at fewer
    rw [queued_finish (isPending_of_mem hf) listens, List.length_append, List.length_singleton,
      openFetches, openFetches, fewer]
    omega
  | relabel key => rw [queued_relabelKey, openFetches, inFlight_relabelKey, openFetches]

/-- The fetches that are kept back stay in flight. -/
theorem Drive.gated_eq {c d : Cache} (h : Drive resolve c d) (kept : WellKept c) :
    d.inFlight.filter Fetch.gated = c.inFlight.filter Fetch.gated := by
  cases h with
  | @finish f hf free =>
    rw [inFlight_finish_eq_filter, List.filter_filter]
    refine List.filter_congr fun g hg => ?_
    cases gated : g.gated with
    | false => rfl
    | true =>
      -- A fetch that is kept back is another one than the one that ended.
      have other : g.key ≠ f.key := by
        intro same
        rw [kept.fetch_unique hg hf same, free] at gated
        cases gated
      rw [decide_eq_true other, Bool.true_and]
  | relabel key => rw [inFlight_relabelKey]

/-- The same of a chain of steps. -/
theorem drifts_of_drives {c d : Cache} (h : ReflTransGen (Drive resolve) c d) :
    ReflTransGen (Drift resolve) c d :=
  ReflTransGen.mono (fun _ _ => Drive.drift) _ _ h

/-- Relabelling all pictures is relabelling one after another. -/
theorem relabel_drives (c : Cache) : ReflTransGen (Drive resolve) c c.relabel := by
  -- The list is fixed first: along the chain the cache changes and its arrivals let go of with
  -- it.
  have chain : ∀ (keys : List String) (c : Cache),
      ReflTransGen (Drive resolve) c (keys.foldl relabelKey c) := by
    intro keys
    induction keys with
    | nil => exact fun c => .refl
    | cons key rest ih => exact fun c => .head (.relabel c key) (ih _)
  rw [relabel_eq_foldl]
  exact chain _ c

/-- Ending fetches one after another is a chain of steps. A fetch that an earlier one of
the same key took along is passed over. -/
theorem finishAll_drives (fetches : List Fetch) (c : Cache)
    (h : ∀ f ∈ fetches, f ∈ c.openFetches ∨ c.isPending f.key = false) :
    ReflTransGen (Drive resolve) c (finishAll resolve c fetches) := by
  induction fetches generalizing c with
  | nil => exact .refl
  | cons f rest ih =>
    show ReflTransGen _ c (finishAll resolve (c.finish f.key (resolve f.url)) rest)
    have first : ReflTransGen (Drive resolve) c (c.finish f.key (resolve f.url)) := by
      rcases h f List.mem_cons_self with hf | hf
      · obtain ⟨flying, free⟩ := List.mem_filter.mp hf
        exact .single (.finish flying (by simpa using free))
      · rw [finish_of_not_pending hf]
    refine first.trans (ih _ fun g hg => ?_)
    -- What the first fetch left in flight is what it was, and the rest has gone with it.
    by_cases hk : g.key = f.key
    · exact .inr (by simp [isPending_finish, hk])
    · rcases h g (List.mem_cons_of_mem f hg) with flying | gone
      · left
        rw [openFetches_finish]
        exact List.mem_filter.mpr ⟨flying, by simpa using hk⟩
      · exact .inr (by rw [isPending_finish, gone, Bool.false_and])

/-- A pump relabels, and then ends the open fetches one by one. None of them is held back, so
somebody who waits gets through a pump. -/
theorem pump_drives (c : Cache) : ReflTransGen (Drive resolve) c (c.pump resolve) :=
  (relabel_drives c).trans (finishAll_drives _ _ fun _ hf => .inl hf)

/-- A pump is a chain of steps of a cache that is left to itself. -/
theorem pump_drifts (c : Cache) : ReflTransGen (Drift resolve) c (c.pump resolve) :=
  drifts_of_drives (pump_drives c)

/-- No fetch that nothing keeps back survives a pump. -/
theorem openFetches_pump (c : Cache) : (c.pump resolve).openFetches = [] := by
  -- Ending fetches takes their keys out of flight, so what is left has other keys.
  have left (fetches : List Fetch) (d : Cache) :
      ∀ f ∈ (finishAll resolve d fetches).inFlight, f ∈ d.inFlight ∧ ∀ g ∈ fetches, f.key ≠ g.key := by
    induction fetches generalizing d with
    | nil => exact fun f hf => ⟨hf, nofun⟩
    | cons g rest ih =>
      intro f hf
      obtain ⟨flying, others⟩ := ih (d.finish g.key (resolve g.url)) f hf
      rw [inFlight_finish_eq_filter, List.mem_filter, decide_eq_true_eq] at flying
      exact ⟨flying.1, List.forall_mem_cons.mpr ⟨flying.2, others⟩⟩
  -- An open fetch that was left would have a key other than its own.
  refine List.filter_eq_nil_iff.mpr fun f hf free => ?_
  obtain ⟨flying, others⟩ := left c.relabel.openFetches c.relabel f hf
  exact others f (List.mem_filter.mpr ⟨flying, free⟩) rfl

/-- A release is a pump, the opening of an address, and another pump. -/
theorem release_drifts (c : Cache) (url : String) :
    ReflTransGen (Drift resolve) c (c.release resolve url) :=
  ((pump_drifts c).tail (.ungate _ url)).trans (pump_drifts _)

end Linework.Cache
