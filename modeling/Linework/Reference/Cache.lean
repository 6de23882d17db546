import Linework.Reference.Picture

/-!
# `Linework.Reference.Cache`: pictures on their way and at hand

The cache loads every key at most once. A key is absent until it is requested, in
flight until its fetch ends, and has an entry from then on, for good. When a
fetch ends while the owner listens, an *arrival* is queued for the owner. The
owner receives arrivals in order and lets go of each when it has dealt with it;
only after that does the picture lose its freshness, at the next `relabel`.

Nothing here happens by itself. `finish` ends one fetch, and `pump` lets
everything happen that can: it relabels what was let go of and ends every fetch
that no held address keeps back, in the order of the requests.

The table of entries, the fetches in flight and the arrivals are plain lists, so
the order in which things were requested and ended is the order of the lists.
-/

set_option autoImplicit false

namespace Linework

/-- A fetch that has not ended. -/
structure Fetch where
  key : String
  url : String
  /-- Whether it waits for its address to be released. -/
  gated : Bool
  deriving DecidableEq, Repr

/-- What an address leads to. -/
abbrev Resolver := String → Except Failure Picture

/-- The pictures of a session. -/
structure Cache where
  /-- What the ended fetches brought, in the order they ended. -/
  entries : List Entry
  /-- The fetches that have not ended, in the order of their requests. -/
  inFlight : List Fetch
  /-- How many fetches were ever started. -/
  calls : Nat
  /-- Whether the owner still takes arrivals. -/
  listening : Bool
  /-- The keys of arrivals that the owner has not received, oldest first. -/
  queued : List String
  /-- The keys of arrivals that the owner has received and not let go of. -/
  received : List String
  /-- The keys of arrivals let go of since the last relabelling. -/
  released : List String
  /-- The addresses whose fetches are kept back. -/
  held : List String
  deriving Repr

namespace Cache

/-- A cache that nothing was requested from. -/
def empty : Cache where
  entries := []
  inFlight := []
  calls := 0
  listening := true
  queued := []
  received := []
  released := []
  held := []

/-- A cache can only be set up where something runs that does the fetching. -/
def start (running : Bool) : Except Failure Cache :=
  if running then .ok empty else .error .noRuntime

/-- What is known under a key. Looking it up starts nothing. -/
def get? (c : Cache) (key : String) : Option EntryState :=
  (c.entries.find? fun e => e.key = key).map Entry.state

/-- Whether the fetch of a key has not ended. -/
def isPending (c : Cache) (key : String) : Bool :=
  c.inFlight.any fun f => f.key = key

/-- Whether a key was ever requested. -/
def knows (c : Cache) (key : String) : Bool :=
  (c.get? key).isSome || c.isPending key

/-- Starts the fetch of a key from an address. -/
def launch (c : Cache) (key url : String) : Cache :=
  { c with
    inFlight := c.inFlight ++ [⟨key, url, decide (url ∈ c.held)⟩]
    calls := c.calls + 1 }

/-- Asks for a key: starts its fetch, unless the key is known already, and says
whether it did. -/
def ask (c : Cache) (key url : String) : Bool × Cache :=
  if c.knows key then (false, c) else (true, c.launch key url)

/-- Asks for a key and does not look at the answer. -/
def request (c : Cache) (key url : String) : Cache := (c.ask key url).2

/-- Ends the fetch of a key with an outcome. The arrival is queued if the owner
listens; otherwise nobody will deal with it and the picture is cached at once. -/
def finish (c : Cache) (key : String) (outcome : Except Failure Picture) : Cache :=
  if c.isPending key then
    { c with
      entries := c.entries ++ [⟨key, .ofOutcome c.listening outcome⟩]
      inFlight := c.inFlight.filter fun f => f.key ≠ key
      queued := if c.listening then c.queued ++ [key] else c.queued }
  else c

/-- Takes the oldest queued arrival. -/
def receive (c : Cache) : Option String × Cache :=
  match c.queued with
  | [] => (none, c)
  | key :: rest => (some key, { c with queued := rest, received := c.received ++ [key] })

/-- Lets go of a received arrival, be it acknowledged or dropped. -/
def letGo (c : Cache) (key : String) : Cache :=
  if key ∈ c.received then
    { c with received := c.received.erase key, released := c.released ++ [key] }
  else c

/-- The owner stops listening. Arrivals it has not received are let go of. -/
def detach (c : Cache) : Cache :=
  { c with listening := false, queued := [], released := c.released ++ c.queued }

/-- An entry whose arrival has been dealt with is no longer fresh. -/
def settleEntry (keys : List String) (e : Entry) : Entry :=
  if e.key ∈ keys then { e with state := e.state.settled } else e

/-- Relabels every picture whose arrival was let go of. -/
def relabel (c : Cache) : Cache :=
  { c with entries := c.entries.map (settleEntry c.released), released := [] }

/-- The fetches that nothing keeps back. -/
def openFetches (c : Cache) : List Fetch :=
  c.inFlight.filter fun f => !f.gated

/-- Ends fetches one after another. -/
def finishAll (resolve : Resolver) (c : Cache) (fetches : List Fetch) : Cache :=
  fetches.foldl (fun c f => c.finish f.key (resolve f.url)) c

/-- Lets everything happen that can. -/
def pump (resolve : Resolver) (c : Cache) : Cache :=
  finishAll resolve c.relabel c.relabel.openFetches

/-- Keeps back the fetches of an address that are requested from now on. -/
def hold (c : Cache) (url : String) : Cache :=
  { c with held := if url ∈ c.held then c.held else url :: c.held }

/-- Opens the fetches of an address and keeps back none of them any longer. -/
def ungate (c : Cache) (url : String) : Cache :=
  { c with
    held := c.held.filter (· ≠ url)
    inFlight := c.inFlight.map fun f => if f.url = url then { f with gated := false } else f }

/-- Releases an address. What can happen happens before and after. -/
def release (resolve : Resolver) (c : Cache) (url : String) : Cache :=
  ((c.pump resolve).ungate url).pump resolve

/-- The cache in one line. -/
def summary (c : Cache) : String :=
  "ReferenceCache \x7b entries: " ++ numeral c.entries.length ++ ", in_flight: "
    ++ numeral c.inFlight.length ++ " \x7d"

end Cache

end Linework
