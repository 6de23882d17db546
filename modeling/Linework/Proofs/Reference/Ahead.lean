import Linework.Proofs.Reference.Drift

/-!
# `Linework.Proofs.Reference.Ahead`: where every order of fetches leads

One cache is *ahead* of another if it lists the same keys, has every outcome that the
other has, and has in flight, or brought in from where it was to come from, whatever
the other has in flight (`Ahead`). Every step of a cache that is left to itself takes it
ahead (`Drift.ahead`), and a request made of both keeps the one ahead of the other
(`Ahead.request`).

A cache with nothing in flight that is ahead of `b` is in no respect its own master: what
is known under a key is what `b` destines it to be (`Ahead.outcome?_of_landed`). So two such
caches hold the same, however their fetches were ordered.
-/

set_option autoImplicit false

namespace Linework.Cache

open List (Perm)

/-- The cache `c` is where `b` may come to if no key is asked for: each fetch of `b` is
still in flight, or has brought what its address leads to. -/
structure Ahead (resolve : Resolver) (b c : Cache) : Prop where
  keys : Perm c.keys b.keys
  entered : ∀ key state, b.outcome? key = some state → c.outcome? key = some state
  ordered : ∀ key url, (key, url) ∈ b.orders →
    (key, url) ∈ c.orders ∨ c.outcome? key = some (.ofOutcome false (resolve url))

variable {resolve : Resolver}

/-- A cache is ahead of itself. -/
theorem Ahead.refl (c : Cache) : Ahead resolve c c :=
  ⟨.refl _, fun _ _ h => h, fun _ _ h => .inl h⟩

/-- A cache that is ahead of one that is ahead is ahead. -/
theorem Ahead.trans {b c d : Cache} (h : Ahead resolve b c) (h' : Ahead resolve c d) :
    Ahead resolve b d where
  keys := h'.keys.trans h.keys
  entered key state found := h'.entered key state (h.entered key state found)
  ordered key url order := by
    rcases h.ordered key url order with flying | landed
    · exact h'.ordered key url flying
    · exact .inr (h'.entered key _ landed)

/-- A key is known to both or to neither, for they list the same keys. -/
theorem Ahead.knows_eq {b c : Cache} (h : Ahead resolve b c) (key : String) :
    c.knows key = b.knows key := by
  rw [Bool.eq_iff_iff, knows_iff, knows_iff, h.keys.mem_iff]

/-! ## Steps that take a cache ahead -/

/-- A cache with the same tables is ahead, though it has not moved. -/
theorem SameTables.ahead {c d : Cache} (h : SameTables c d) : Ahead resolve c d where
  keys := .of_eq h.keys_eq
  entered key state found := by rwa [outcome?, h.get?_eq]
  ordered key url order := .inl (h.orders ▸ order)

/-- A fetch that ends is in flight no longer, and its outcome is known. -/
theorem ahead_finish {c : Cache} (kept : WellKept c) {f : Fetch} (hf : f ∈ c.inFlight) :
    Ahead resolve c (c.finish f.key (resolve f.url)) where
  keys := keys_finish_perm kept.distinct _ _
  entered key state found := by
    obtain ⟨entry, entered, settles⟩ := Option.map_eq_some_iff.mp found
    rw [outcome?, get?_finish, entered, Option.some_or, Option.map_some, settles]
  ordered key url order := by
    obtain ⟨g, hg, named⟩ := List.mem_map.mp order
    obtain ⟨rfl, rfl⟩ := Prod.mk.inj named
    have pending : c.isPending f.key = true := isPending_of_mem hf
    -- The fetch that ended is the one ordered, or the one ordered is still in flight.
    by_cases hk : g.key = f.key
    · right
      have new : c.get? f.key = none := by
        rw [get?_eq_none_iff, ← get?_isSome_iff]
        exact fun entered => kept.disjoint f.key ⟨entered, pending⟩
      rw [kept.fetch_unique hg hf hk, outcome?, get?_finish, new, Option.none_or,
        if_pos ⟨pending, rfl⟩, Option.map_some, EntryState.settled_ofOutcome]
    · left
      have stays : g ∈ c.inFlight.filter fun other => other.key ≠ f.key :=
        List.mem_filter.mpr ⟨hg, by simpa using hk⟩
      rw [orders, inFlight_finish pending]
      exact List.mem_map.mpr ⟨g, stays, rfl⟩

/-- Relabelling changes no outcome, and so nothing that counts here. -/
theorem ahead_relabelKey (c : Cache) (key : String) : Ahead resolve c (c.relabelKey key) where
  keys := .of_eq (keys_relabelKey c key)
  entered other state found := by rwa [outcome?_relabelKey]
  ordered other url order := by
    left
    rwa [orders, inFlight_relabelKey]

/-- Every step of a cache that is left to itself takes it ahead, whichever step it is. -/
theorem Drift.ahead {c d : Cache} (h : Drift resolve c d) (kept : WellKept c) :
    Ahead resolve c d := by
  cases h with
  | finish hf => exact ahead_finish kept hf
  | relabel key => exact ahead_relabelKey c key
  | hold url => exact (sameTables_hold c url).ahead
  | ungate url => exact (sameTables_ungate c url).ahead
  | keepBack key => exact (sameTables_keepBack c key).ahead

/-! ## Requests made of both -/

/-- A request brings no outcome. -/
theorem outcome?_request (c : Cache) (key url other : String) :
    (c.request key url).outcome? other = c.outcome? other := by
  rw [outcome?, get?_request, outcome?]

/-- A key that the one cache knows is known to the other, so a request starts a fetch in both
or in neither. -/
theorem Ahead.request {b c : Cache} (h : Ahead resolve b c) (key url : String) :
    Ahead resolve (b.request key url) (c.request key url) := by
  cases known : b.knows key with
  | true => rwa [request_of_knows known, request_of_knows ((h.knows_eq key).trans known)]
  | false =>
    have unknown : c.knows key = false := (h.knows_eq key).trans known
    have orders_launch (c : Cache) : (c.launch key url).orders = c.orders ++ [(key, url)] :=
      List.map_append
    -- Both launch the fetch: the key is listed last in each, and the order stands last in each.
    refine ⟨?_, fun other state found => ?_, fun other address order => ?_⟩
    · rw [request_of_unknown known, request_of_unknown unknown, keys_launch, keys_launch]
      exact h.keys.append_right [key]
    · rw [outcome?_request] at found ⊢
      exact h.entered other state found
    · rw [request_of_unknown known, orders_launch, List.mem_append] at order
      rw [outcome?_request, request_of_unknown unknown, orders_launch, List.mem_append]
      rcases order with before | now
      · exact (h.ordered other address before).imp_left .inl
      · exact .inl (.inr now)

/-- Several requests made of both keep the one ahead of the other. -/
theorem Ahead.requestAll {b c : Cache} (h : Ahead resolve b c) (urls : List String) :
    Ahead resolve (b.requestAll urls) (c.requestAll urls) := by
  induction urls generalizing b c with
  | nil => exact h
  | cons url rest ih => exact ih (h.request url url)

/-! ## Where it ends -/

/-- What will be known under a key once nothing is in flight any longer. -/
def destined (resolve : Resolver) (b : Cache) (key : String) : Option EntryState :=
  (b.outcome? key).or
    ((b.orders.find? fun order => order.1 = key).map fun order => .ofOutcome false (resolve order.2))

/-- A cache with nothing in flight has what every cache that it is ahead of destined. -/
theorem Ahead.outcome?_of_landed {b c : Cache} (h : Ahead resolve b c) (landed : c.inFlight = [])
    (key : String) : c.outcome? key = b.destined resolve key := by
  rw [destined]
  cases outcome : b.outcome? key with
  | some state => rw [Option.some_or, h.entered key state outcome]
  | none =>
    rw [Option.none_or]
    cases order : b.orders.find? fun order => order.1 = key with
    | some order' =>
      obtain ⟨key', url⟩ := order'
      obtain rfl : key' = key := by simpa using List.find?_some order
      -- Nothing is in flight, so the order was carried out.
      rcases h.ordered key' url (List.mem_of_find?_eq_some order) with flying | brought
      · rw [orders, landed] at flying
        exact absurd flying List.not_mem_nil
      · exact brought
    | none =>
      -- A key that `b` does not list is listed nowhere.
      have unentered : key ∉ b.entryKeys := by
        rwa [← get?_eq_none_iff, ← Option.map_eq_none_iff]
      have unordered : key ∉ b.pendingKeys := by
        rw [pendingKeys_eq_orders]
        intro member
        obtain ⟨found, ordered, named⟩ := List.mem_map.mp member
        exact List.find?_eq_none.mp order found ordered (decide_eq_true named)
      have unlisted : key ∉ c.keys := by
        rw [h.keys.mem_iff, Cache.keys, List.mem_append, not_or]
        exact ⟨unentered, unordered⟩
      rw [outcome?, (get?_eq_none_iff c key).mpr fun entered => unlisted (List.mem_append_left _ entered)]
      rfl

/-- Then each of its keys has an entry. -/
theorem Ahead.length_entries_of_landed {b c : Cache} (h : Ahead resolve b c)
    (landed : c.inFlight = []) : c.entries.length = b.keys.length := by
  rw [← h.keys.length_eq, Cache.keys, pendingKeys, landed, List.map_nil, List.append_nil, entryKeys,
    List.length_map]

end Linework.Cache
