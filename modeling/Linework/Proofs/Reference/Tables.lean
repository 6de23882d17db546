import Linework.Reference.Cache
import Mathlib.Data.List.Nodup
import Mathlib.Data.List.Perm.Basic

/-!
# `Linework.Proofs.Reference.Tables`: the two tables of the cache

A key that was ever asked for stands in one of two tables, the entries or the
fetches in flight. `Cache.keys` lists both, the entries first. The lemmas say
what each operation does to the tables, so that no later proof opens an
operation:

* `keys_request_perm` / `keys_finish_perm`: a request adds a key that was in
  neither table, the end of a fetch moves a key from one table to the other, and
  nothing else changes what is listed.
* `get?_finish`, `get?_relabelKey`: what is known under a key after a fetch ended
  and after one picture was relabelled. Every other operation leaves it alone.
* `WellKept`: no key is listed twice, and the fetches ever started are as many as
  the keys listed. It holds of the empty cache and is kept by every operation.

`relabelKey` is what one ended fetch does on its own, once its arrival was let go
of. `relabel` does it for all of them (`relabel_eq_foldl`).
-/

set_option autoImplicit false

namespace Linework

open List (Perm)

namespace EntryState

/-- Dealing with an arrival twice is dealing with it once. -/
@[simp] theorem settled_settled (state : EntryState) : state.settled.settled = state.settled := by
  cases state <;> rfl

/-- Dealing with an arrival keeps the picture. -/
@[simp] theorem picture?_settled (state : EntryState) : state.settled.picture? = state.picture? := by
  cases state <;> rfl

/-- Whether somebody listened when a fetch ended matters for freshness only. -/
@[simp] theorem settled_ofOutcome (fresh : Bool) (outcome : Except Failure Picture) :
    (ofOutcome fresh outcome).settled = ofOutcome false outcome := by
  cases outcome <;> rfl

end EntryState

namespace Cache

/-! ## What is listed -/

/-- The keys that have an entry, in the order their fetches ended. -/
def entryKeys (c : Cache) : List String := c.entries.map Entry.key

/-- The keys in flight, in the order of their requests. -/
def pendingKeys (c : Cache) : List String := c.inFlight.map Fetch.key

/-- Every key that was ever asked for. -/
def keys (c : Cache) : List String := c.entryKeys ++ c.pendingKeys

/-- A lookup finds something if and only if the key is listed among the entries. -/
theorem get?_isSome_iff (c : Cache) (key : String) :
    (c.get? key).isSome = true ↔ key ∈ c.entryKeys := by
  simp [get?, entryKeys]

/-- A lookup finds nothing if and only if the key has no entry. -/
theorem get?_eq_none_iff (c : Cache) (key : String) :
    c.get? key = none ↔ key ∉ c.entryKeys := by
  rw [← get?_isSome_iff, Bool.not_eq_true, Option.isSome_eq_false_iff, Option.isNone_iff_eq_none]

/-- A key is in flight if and only if it is listed among the keys in flight. -/
theorem isPending_iff (c : Cache) (key : String) :
    c.isPending key = true ↔ key ∈ c.pendingKeys := by
  simp [isPending, pendingKeys]

/-- The key of a fetch in flight is in flight. -/
theorem isPending_of_mem {c : Cache} {f : Fetch} (hf : f ∈ c.inFlight) :
    c.isPending f.key = true :=
  (c.isPending_iff f.key).mpr (List.mem_map_of_mem hf)

/-- What the fetch of a key brought, be the picture fresh or not. -/
def outcome? (c : Cache) (key : String) : Option EntryState := (c.get? key).map EntryState.settled

/-- Knowing a key is having it in a table. -/
theorem knows_iff (c : Cache) (key : String) : c.knows key = true ↔ key ∈ c.keys := by
  rw [knows, Bool.or_eq_true, get?_isSome_iff, isPending_iff, keys, List.mem_append]

/-- A key with an entry is known. -/
theorem knows_of_get? {c : Cache} {key : String} {state : EntryState}
    (h : c.get? key = some state) : c.knows key = true := by
  simp [knows, h]

/-! ## Requests -/

/-- Asking says yes if and only if the key was not known, which is to say, if it starts a
fetch. -/
theorem ask_fst (c : Cache) (key url : String) : (c.ask key url).1 = !c.knows key := by
  unfold ask
  split <;> simp_all

/-- Asking for a key that is known changes nothing, whatever the address. -/
theorem request_of_knows {c : Cache} {key : String} (h : c.knows key = true) (url : String) :
    c.request key url = c := by
  simp [request, ask, h]

/-- Asking for a key that is not known starts its fetch. -/
theorem request_of_unknown {c : Cache} {key : String} (h : c.knows key = false) (url : String) :
    c.request key url = c.launch key url := by
  simp [request, ask, h]

/-- A request does one of two things. What holds of the cache and is kept by `launch` is kept by a
request. -/
theorem request_eq_or (c : Cache) (key url : String) :
    c.request key url = c ∨ c.request key url = c.launch key url := by
  cases h : c.knows key with
  | true => exact .inl (request_of_knows h url)
  | false => exact .inr (request_of_unknown h url)

/-- A request does not touch the entries, so it shows in no later lookup. -/
@[simp] theorem entries_request (c : Cache) (key url : String) :
    (c.request key url).entries = c.entries := by
  rcases c.request_eq_or key url with h | h <;> rw [h]
  rfl

/-- A request shows in no lookup: what it started has no entry yet. -/
@[simp] theorem get?_request (c : Cache) (key url other : String) :
    (c.request key url).get? other = c.get? other := by
  rw [get?, entries_request, get?]

/-- A request queues no arrival. Only the end of a fetch does. -/
@[simp] theorem queued_request (c : Cache) (key url : String) :
    (c.request key url).queued = c.queued := by
  rcases c.request_eq_or key url with h | h <;> rw [h]
  rfl

/-- A request does not change whether the owner listens. -/
@[simp] theorem listening_request (c : Cache) (key url : String) :
    (c.request key url).listening = c.listening := by
  rcases c.request_eq_or key url with h | h <;> rw [h]
  rfl

/-- A fetch that starts is listed last, after the entries and the fetches before it. -/
theorem keys_launch (c : Cache) (key url : String) : (c.launch key url).keys = c.keys ++ [key] := by
  simp [keys, entryKeys, pendingKeys, launch]

/-- A request adds the key, unless it is listed. -/
theorem keys_request_perm (c : Cache) (key url : String) :
    Perm (c.request key url).keys (if c.knows key then c.keys else key :: c.keys) := by
  cases h : c.knows key with
  | true => rw [request_of_knows h, if_pos rfl]
  | false =>
    rw [request_of_unknown h, keys_launch, if_neg (by decide)]
    exact List.perm_append_singleton key c.keys

/-- After a request the key is known, and whatever was known stays known. -/
@[simp] theorem knows_request (c : Cache) (key url other : String) :
    (c.request key url).knows other = (c.knows other || decide (other = key)) := by
  rw [Bool.eq_iff_iff, knows_iff, (keys_request_perm c key url).mem_iff]
  cases h : c.knows key with
  | true =>
    rw [if_pos rfl, ← knows_iff, Bool.or_eq_true, decide_eq_true_iff, or_iff_left_of_imp]
    rintro rfl
    exact h
  | false =>
    rw [if_neg (by decide), List.mem_cons, ← knows_iff, Bool.or_eq_true, decide_eq_true_iff, or_comm]

/-! ## Asking for several pictures -/

/-- Asks for pictures under their addresses, one after another. -/
def requestAll (c : Cache) (urls : List String) : Cache :=
  urls.foldl (fun c url => c.request url url) c

/-- Asking for two lists one after the other is asking for them in one list. -/
theorem requestAll_append (c : Cache) (urls more : List String) :
    c.requestAll (urls ++ more) = (c.requestAll urls).requestAll more :=
  List.foldl_append

/-- What no request touches, several do not touch. -/
theorem requestAll_keeps {α : Type} {field : Cache → α}
    (h : ∀ c key url, field (request c key url) = field c) (c : Cache) (urls : List String) :
    field (c.requestAll urls) = field c := by
  -- One request after another, so the cache is not fixed: each request starts from what the one
  -- before left.
  induction urls generalizing c with
  | nil => rfl
  | cons url rest ih => exact (ih _).trans (h c url url)

/-- Requests touch no entry. -/
@[simp] theorem entries_requestAll (c : Cache) (urls : List String) :
    (c.requestAll urls).entries = c.entries :=
  requestAll_keeps entries_request c urls

/-- Requests show in no lookup. -/
@[simp] theorem get?_requestAll (c : Cache) (urls : List String) (key : String) :
    (c.requestAll urls).get? key = c.get? key := by
  rw [get?, entries_requestAll, get?]

/-- Requests change nothing about what can be looked up. -/
theorem look_requestAll (c : Cache) (urls : List String) : (c.requestAll urls).get? = c.get? :=
  funext (c.get?_requestAll urls)

/-- Requests queue no arrival. -/
@[simp] theorem queued_requestAll (c : Cache) (urls : List String) :
    (c.requestAll urls).queued = c.queued :=
  requestAll_keeps queued_request c urls

/-- Requests do not change whether the owner listens. -/
@[simp] theorem listening_requestAll (c : Cache) (urls : List String) :
    (c.requestAll urls).listening = c.listening :=
  requestAll_keeps listening_request c urls

/-- Afterwards the addresses are known, and whatever was known stays known. -/
theorem knows_requestAll (c : Cache) (urls : List String) (key : String) :
    (c.requestAll urls).knows key = (c.knows key || decide (key ∈ urls)) := by
  induction urls generalizing c with
  | nil => simp [requestAll]
  | cons url rest ih =>
    show ((c.request url url).requestAll rest).knows key = _
    rw [ih, knows_request, Bool.or_assoc]
    congr 1
    rw [Bool.eq_iff_iff]
    simp

/-- Asking for addresses that are all known changes nothing. -/
theorem requestAll_of_known {c : Cache} {urls : List String}
    (known : ∀ url ∈ urls, c.knows url = true) : c.requestAll urls = c := by
  induction urls with
  | nil => rfl
  | cons url rest ih =>
    show (c.request url url).requestAll rest = c
    -- The first request changes nothing, so the others are asked of the same cache.
    rw [request_of_knows (known url List.mem_cons_self)]
    exact ih fun other h => known other (List.mem_cons_of_mem _ h)

/-! ## The end of a fetch -/

/-- The end of a fetch that is not in flight is nothing that happens. -/
theorem finish_of_not_pending {c : Cache} {key : String} (h : c.isPending key = false)
    (outcome : Except Failure Picture) : c.finish key outcome = c := by
  simp [finish, h]

/-- The entry of a fetch that ended stands last. It is fresh if the owner listened. -/
theorem entries_finish {c : Cache} {key : String} (h : c.isPending key = true)
    (outcome : Except Failure Picture) :
    (c.finish key outcome).entries = c.entries ++ [⟨key, .ofOutcome c.listening outcome⟩] := by
  simp [finish, h]

/-- A fetch that ended is in flight no longer. The others stay in their order. -/
theorem inFlight_finish {c : Cache} {key : String} (h : c.isPending key = true)
    (outcome : Except Failure Picture) :
    (c.finish key outcome).inFlight = c.inFlight.filter fun f => f.key ≠ key := by
  simp [finish, h]

/-- To an owner who listens the arrival is queued last. -/
theorem queued_finish {c : Cache} {key : String} (h : c.isPending key = true)
    (listens : c.listening = true) (outcome : Except Failure Picture) :
    (c.finish key outcome).queued = c.queued ++ [key] := by
  simp [finish, h, listens]

/-- The end of a fetch starts none. -/
@[simp] theorem calls_finish (c : Cache) (key : String) (outcome : Except Failure Picture) :
    (c.finish key outcome).calls = c.calls := by
  unfold finish
  split <;> rfl

/-- The end of a fetch does not change whether the owner listens. -/
@[simp] theorem listening_finish (c : Cache) (key : String) (outcome : Except Failure Picture) :
    (c.finish key outcome).listening = c.listening := by
  unfold finish
  split <;> rfl

/-- The key of a fetch that ended is in flight no longer, and the others are as
they were. -/
theorem isPending_finish (c : Cache) (key other : String) (outcome : Except Failure Picture) :
    (c.finish key outcome).isPending other = (c.isPending other && decide (other ≠ key)) := by
  cases h : c.isPending key with
  | false =>
    rw [finish_of_not_pending h]
    by_cases hk : other = key
    · rw [hk, h, Bool.false_and]
    · rw [decide_eq_true hk, Bool.and_true]
  | true =>
    rw [Bool.eq_iff_iff, isPending, isPending, inFlight_finish h, Bool.and_eq_true]
    simp only [List.any_eq_true, List.mem_filter, decide_eq_true_eq]
    constructor
    · rintro ⟨f, ⟨hf, hk⟩, rfl⟩
      exact ⟨⟨f, hf, rfl⟩, hk⟩
    · rintro ⟨⟨f, hf, rfl⟩, hk⟩
      exact ⟨f, ⟨hf, hk⟩, rfl⟩

/-- What is known under a key stays so when a fetch ends. Under the key of the
fetch the outcome is known then. -/
theorem get?_finish (c : Cache) (key other : String) (outcome : Except Failure Picture) :
    (c.finish key outcome).get? other
      = (c.get? other).or
          (if c.isPending key = true ∧ key = other then some (.ofOutcome c.listening outcome)
            else none) := by
  cases h : c.isPending key with
  | false => simp [finish_of_not_pending h]
  | true =>
    -- The new entry stands last, so it is found only where no other is.
    rw [get?, entries_finish h, List.find?_append, Option.map_or, ← get?]
    by_cases hk : key = other
    · simp [hk]
    · simp [hk]

/-- The end of a fetch moves its key from one table to the other. -/
theorem keys_finish_perm {c : Cache} (distinct : c.keys.Nodup) (key : String)
    (outcome : Except Failure Picture) : Perm (c.finish key outcome).keys c.keys := by
  cases h : c.isPending key with
  | false => rw [finish_of_not_pending h]
  | true =>
    have pending : key ∈ c.pendingKeys := (c.isPending_iff key).mp h
    -- No key is in flight twice, so dropping the fetches of `key` drops one key.
    have left : (c.finish key outcome).pendingKeys = c.pendingKeys.erase key := by
      rw [(List.nodup_append.mp distinct).2.1.erase_eq_filter, pendingKeys, pendingKeys,
        inFlight_finish h, List.filter_map]
      exact congrArg _ (List.filter_congr fun f _ => decide_not)
    rw [keys, keys, left, entryKeys, entries_finish h, List.map_append, List.append_assoc]
    exact (List.perm_cons_erase pending).symm.append_left _

/-! ## Relabelling -/

/-- One ended fetch relabels its picture, once its arrival was let go of. -/
def relabelKey (c : Cache) (key : String) : Cache :=
  if key ∈ c.released then
    { c with
      entries := c.entries.map (settleEntry [key])
      released := c.released.erase key }
  else c

/-- Relabelling changes the states of entries and leaves their keys in place. -/
@[simp] theorem entryKeys_relabelKey (c : Cache) (key : String) :
    (c.relabelKey key).entryKeys = c.entryKeys := by
  unfold relabelKey entryKeys
  split
  · rw [List.map_map]
    refine List.map_congr_left fun e _ => ?_
    unfold Function.comp settleEntry
    split <;> rfl
  · rfl

/-- Relabelling touches no fetch in flight. -/
@[simp] theorem inFlight_relabelKey (c : Cache) (key : String) :
    (c.relabelKey key).inFlight = c.inFlight := by
  unfold relabelKey
  split <;> rfl

/-- Relabelling does not change whether the owner listens. -/
@[simp] theorem listening_relabelKey (c : Cache) (key : String) :
    (c.relabelKey key).listening = c.listening := by
  unfold relabelKey
  split <;> rfl

/-- Relabelling queues no arrival and takes none. -/
@[simp] theorem queued_relabelKey (c : Cache) (key : String) :
    (c.relabelKey key).queued = c.queued := by
  unfold relabelKey
  split <;> rfl

/-- Relabelling lists the same keys in the same order. -/
@[simp] theorem keys_relabelKey (c : Cache) (key : String) : (c.relabelKey key).keys = c.keys := by
  rw [keys, keys, entryKeys_relabelKey, pendingKeys, pendingKeys, inFlight_relabelKey]

/-- Relabelling starts no fetch. -/
@[simp] theorem calls_relabelKey (c : Cache) (key : String) :
    (c.relabelKey key).calls = c.calls := by
  unfold relabelKey
  split <;> rfl

/-- Relabelling moves no entry, so a lookup finds the relabelled entry of the same
key. -/
theorem find?_settleEntry (keys : List String) (entries : List Entry) (key : String) :
    (entries.map (settleEntry keys)).find? (fun e => e.key = key)
      = (entries.find? fun e => e.key = key).map (settleEntry keys) := by
  rw [List.find?_map]
  congr 2
  funext e
  unfold Function.comp settleEntry
  split <;> rfl

/-- Relabelling one picture changes what is known under its key only, and there
only the freshness. -/
theorem get?_relabelKey (c : Cache) (key other : String) :
    (c.relabelKey key).get? other
      = if key ∈ c.released ∧ key = other then (c.get? other).map EntryState.settled
        else c.get? other := by
  by_cases h : key ∈ c.released
  · have found : (c.relabelKey key).entries = c.entries.map (settleEntry [key]) := by
      simp [relabelKey, h]
    rw [get?, found, find?_settleEntry, Option.map_map, get?, Option.map_map]
    cases hf : c.entries.find? fun e => e.key = other with
    | none => simp
    | some e =>
      -- The entry found is the one relabelled, or has another key.
      have he : e.key = other := by simpa using List.find?_some hf
      by_cases hk : key = other
      · subst hk
        simp [settleEntry, he, h]
      · simp [settleEntry, he, hk, Ne.symm hk]
  · rw [relabelKey, if_neg h, if_neg fun both => h both.1]

/-- Relabelling touches the freshness of pictures only. -/
@[simp] theorem outcome?_relabelKey (c : Cache) (key other : String) :
    (c.relabelKey key).outcome? other = c.outcome? other := by
  rw [outcome?, outcome?, get?_relabelKey]
  split
  · rw [Option.map_map]
    exact congrArg (fun f => (c.get? other).map f) (funext EntryState.settled_settled)
  · rfl

/-- Settling the entries of several keys is settling those of the first and then those of the
others. An entry that is settled twice is as after the first time. -/
theorem settleEntry_cons (key : String) (keys : List String) :
    settleEntry (key :: keys) = settleEntry keys ∘ settleEntry [key] := by
  funext e
  unfold Function.comp settleEntry
  -- Only an entry of the first key can be touched twice.
  by_cases hk : e.key = key
  · by_cases hm : key ∈ keys
    · simp [hk, hm]
    · simp [hk, hm]
  · simp [hk]

/-- The relabelling of all pictures is the relabelling of one after another. -/
theorem relabel_eq_foldl (c : Cache) : c.relabel = c.released.foldl relabelKey c := by
  -- Each step shortens `released`, so the list folded over is fixed first.
  have key : ∀ (keys : List String) (c : Cache), c.released = keys →
      c.relabel = keys.foldl relabelKey c := by
    intro keys
    induction keys with
    | nil =>
      intro c hc
      have idle : settleEntry [] = id := funext fun e => by simp [settleEntry]
      rw [List.foldl_nil, relabel, hc, idle, List.map_id, ← hc]
    | cons key keys ih =>
      intro c hc
      rw [List.foldl_cons, ← ih (c.relabelKey key) (by simp [relabelKey, hc])]
      simp [relabel, relabelKey, hc, settleEntry_cons key keys]
  exact key c.released c rfl

/-! ## Operations that leave the tables alone -/

/-- What is fetched from where. -/
def orders (c : Cache) : List (String × String) := c.inFlight.map fun f => (f.key, f.url)

/-- The keys in flight can be read off the orders, so whoever keeps the orders keeps these
keys. -/
theorem pendingKeys_eq_orders (c : Cache) : c.pendingKeys = c.orders.map Prod.fst := by
  rw [orders, List.map_map]
  rfl

/-- The second cache has the tables of the first. -/
structure SameTables (c d : Cache) : Prop where
  entries : d.entries = c.entries
  orders : d.orders = c.orders
  calls : d.calls = c.calls

namespace SameTables

/-- A cache has its own tables. -/
theorem refl (c : Cache) : SameTables c c := ⟨rfl, rfl, rfl⟩

/-- Operations that leave the tables alone do so one after another. -/
theorem trans {b c d : Cache} (h : SameTables b c) (h' : SameTables c d) : SameTables b d :=
  ⟨h'.entries.trans h.entries, h'.orders.trans h.orders, h'.calls.trans h.calls⟩

/-- With the same tables the same keys are in flight. -/
theorem pending {c d : Cache} (h : SameTables c d) : d.pendingKeys = c.pendingKeys := by
  rw [pendingKeys_eq_orders, pendingKeys_eq_orders, h.orders]

/-- With the same tables every lookup finds the same. -/
theorem get?_eq {c d : Cache} (h : SameTables c d) (key : String) : d.get? key = c.get? key := by
  rw [get?, get?, h.entries]

/-- With the same tables the same keys are listed. -/
theorem keys_eq {c d : Cache} (h : SameTables c d) : d.keys = c.keys := by
  rw [keys, keys, entryKeys, entryKeys, h.entries, h.pending]

/-- With the same tables a key is in flight in both or in neither. -/
theorem isPending_eq {c d : Cache} (h : SameTables c d) (key : String) :
    d.isPending key = c.isPending key := by
  rw [Bool.eq_iff_iff, isPending_iff, isPending_iff, h.pending]

/-- With the same tables a key is known in both or in neither. -/
theorem knows_eq {c d : Cache} (h : SameTables c d) (key : String) :
    d.knows key = c.knows key := by
  rw [knows, knows, h.get?_eq, h.isPending_eq]

end SameTables

/-- Receiving an arrival moves it from the queue to those in hand, and that is all. -/
theorem sameTables_receive (c : Cache) : SameTables c c.receive.2 := by
  unfold receive
  split <;> exact ⟨rfl, rfl, rfl⟩

/-- Letting go of an arrival leaves the relabelling for later. -/
theorem sameTables_letGo (c : Cache) (key : String) : SameTables c (c.letGo key) := by
  unfold letGo
  split <;> exact ⟨rfl, rfl, rfl⟩

/-- Receiving does not change whether the owner listens. -/
@[simp] theorem listening_receive (c : Cache) : c.receive.2.listening = c.listening := by
  unfold receive
  split <;> rfl

/-- Letting go does not change whether the owner listens. -/
@[simp] theorem listening_letGo (c : Cache) (key : String) :
    (c.letGo key).listening = c.listening := by
  unfold letGo
  split <;> rfl

/-- Letting go of an arrival in hand leaves the queue alone. -/
@[simp] theorem queued_letGo (c : Cache) (key : String) : (c.letGo key).queued = c.queued := by
  unfold letGo
  split <;> rfl

/-- Letting go touches no fetch in flight. -/
@[simp] theorem inFlight_letGo (c : Cache) (key : String) :
    (c.letGo key).inFlight = c.inFlight := by
  unfold letGo
  split <;> rfl

/-- An owner who stops listening leaves the tables behind as they are. -/
theorem sameTables_detach (c : Cache) : SameTables c c.detach := ⟨rfl, rfl, rfl⟩

/-- Holding an address concerns later requests only. -/
theorem sameTables_hold (c : Cache) (url : String) : SameTables c (c.hold url) := ⟨rfl, rfl, rfl⟩

/-- A fetch that is opened or kept back is still in the table with its address. -/
theorem orders_map_gate (fetches : List Fetch) (p : Fetch → Prop) [DecidablePred p]
    (gated : Bool) :
    (fetches.map fun f => if p f then { f with gated := gated } else f).map
        (fun f => (f.key, f.url))
      = fetches.map fun f => (f.key, f.url) := by
  rw [List.map_map]
  refine List.map_congr_left fun f _ => ?_
  by_cases meant : p f
  · simp [meant]
  · simp [meant]

/-- Opening the fetches of an address leaves the tables alone. -/
theorem sameTables_ungate (c : Cache) (url : String) : SameTables c (c.ungate url) :=
  ⟨rfl, orders_map_gate c.inFlight (·.url = url) false, rfl⟩

/-- Keeps back the fetch of one key until its address is released. Where `hold` keeps
back what an address is asked for from now on, this names a single fetch, so any set
of the fetches in flight can be kept back, one key after another. -/
def keepBack (c : Cache) (key : String) : Cache :=
  { c with
    inFlight := c.inFlight.map fun f => if f.key = key then { f with gated := true } else f }

/-- Keeping back a fetch leaves the tables alone, too. -/
theorem sameTables_keepBack (c : Cache) (key : String) : SameTables c (c.keepBack key) :=
  ⟨rfl, orders_map_gate c.inFlight (·.key = key) true, rfl⟩

/-! ## The invariant of the tables -/

/-- No key stands in the tables twice, and a fetch was started for each. -/
structure WellKept (c : Cache) : Prop where
  distinct : c.keys.Nodup
  counted : c.calls = c.keys.length

/-- The empty cache lists no key and has started no fetch. -/
theorem wellKept_empty : WellKept empty := ⟨List.nodup_nil, rfl⟩

/-- What the tables list is all that counts. -/
theorem WellKept.of_keys {c d : Cache} (h : WellKept c) (keys : d.keys = c.keys)
    (calls : d.calls = c.calls) : WellKept d :=
  ⟨keys ▸ h.distinct, by rw [calls, keys, h.counted]⟩

/-- What leaves the tables alone keeps them well. -/
theorem WellKept.of_sameTables {c d : Cache} (h : WellKept c) (same : SameTables c d) :
    WellKept d :=
  h.of_keys same.keys_eq same.calls

/-- A request keeps the tables well: the key it adds was listed nowhere. -/
theorem WellKept.request {c : Cache} (h : WellKept c) (key url : String) :
    WellKept (c.request key url) := by
  have perm := keys_request_perm c key url
  cases hk : c.knows key with
  | true => rwa [request_of_knows hk]
  | false =>
    have fresh : key ∉ c.keys := by rw [← knows_iff, hk]; decide
    rw [hk, if_neg (by decide)] at perm
    -- One key more is listed, and one fetch more is counted.
    refine ⟨perm.nodup_iff.mpr (List.nodup_cons.mpr ⟨fresh, h.distinct⟩), ?_⟩
    rw [perm.length_eq, List.length_cons, ← h.counted, request_of_unknown hk]
    rfl

/-- Several requests keep the tables well, one after another. -/
theorem WellKept.requestAll {c : Cache} (h : WellKept c) (urls : List String) :
    WellKept (c.requestAll urls) := by
  induction urls generalizing c with
  | nil => exact h
  | cons url rest ih => exact ih (h.request url url)

/-- The end of a fetch keeps the tables well: a key goes from one to the other, and no fetch is
counted. -/
theorem WellKept.finish {c : Cache} (h : WellKept c) (key : String)
    (outcome : Except Failure Picture) : WellKept (c.finish key outcome) := by
  have perm := keys_finish_perm h.distinct key outcome
  exact ⟨perm.nodup_iff.mpr h.distinct, by rw [calls_finish, perm.length_eq, h.counted]⟩

/-- Relabelling keeps the tables well, for it lists the same keys. -/
theorem WellKept.relabelKey {c : Cache} (h : WellKept c) (key : String) :
    WellKept (c.relabelKey key) :=
  h.of_keys (keys_relabelKey c key) (calls_relabelKey c key)

/-- A key has an entry or is in flight, not both. -/
theorem WellKept.disjoint {c : Cache} (h : WellKept c) (key : String) :
    ¬((c.get? key).isSome = true ∧ c.isPending key = true) := by
  rw [get?_isSome_iff, isPending_iff]
  rintro ⟨entered, pending⟩
  exact (List.nodup_append.mp h.distinct).2.2 key entered key pending rfl

/-- Two fetches in flight for one key are the same fetch. -/
theorem WellKept.fetch_unique {c : Cache} (h : WellKept c) {f g : Fetch} (hf : f ∈ c.inFlight)
    (hg : g ∈ c.inFlight) (hk : f.key = g.key) : f = g :=
  List.inj_on_of_nodup_map (List.nodup_append.mp h.distinct).2.1 hf hg hk

end Cache

end Linework
