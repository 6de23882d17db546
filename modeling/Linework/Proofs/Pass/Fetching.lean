import Linework.Proofs.Pass.Halting
import Linework.Proofs.Pass.Pictures

/-!
# `Linework.Proofs.Pass.Fetching`: the fetches that a pass starts

The lines of a pass ask for pictures one after another, and the cache changes under them: what one
line asked for is on its way when a later line asks again. Seen from the end it is simple. Of the
addresses asked for, those that the cache did not know when the pass began are fetched, each once,
in the order in which they first come up (`Cache.requestAll_eq`). Nothing else happens to the
cache, so a pass finds the entries at its end as they were at its beginning.

A line asks for an address if it calls a command that places pictures, with arguments that pass
its check (`Registry.referenceUrl?`), and only the lines that the pass gets past count. So what is
asked for can be told from the script and the verdict (`Registry.wanted_eq`).

Once it is asked for, a pass over the same script has nothing left to ask for, and it reads the
same entries. `pass_starts_fetches` is all of this.
-/

set_option autoImplicit false

namespace Linework

/-! ## Asking for many pictures -/

/-- The addresses that the cache does not know, each once, in the order in which they first come
up. -/
def Cache.unknown (c : Cache) (urls : List String) : List String :=
  (urls.filter fun url => !c.knows url).eraseDups

/-- A fetch as it is started: under its address, and kept back if the address is held. -/
def Cache.fetchOf (c : Cache) (url : String) : Fetch := ⟨url, url, decide (url ∈ c.held)⟩

/-- An address that is known is not among the unknown ones. -/
theorem Cache.unknown_cons_of_knows {c : Cache} {url : String} (known : c.knows url = true)
    (urls : List String) : c.unknown (url :: urls) = c.unknown urls := by
  rw [unknown, List.filter_cons_of_neg (by simp [known]), unknown]

/-- An unknown address is the first of the unknown ones, and is known from then on. -/
theorem Cache.unknown_cons_of_unknown {c : Cache} {url : String} (new : c.knows url = false)
    (urls : List String) : c.unknown (url :: urls) = url :: (c.launch url url).unknown urls := by
  have knows (other : String) :
      (c.launch url url).knows other = (c.knows other || decide (other = url)) := by
    rw [← request_of_unknown new url, knows_request]
  rw [unknown, List.filter_cons_of_pos (by simp [new]), List.eraseDups_cons, List.filter_filter,
    unknown]
  congr 3
  funext other
  rw [knows, Bool.not_or, Bool.and_comm]
  rfl

/-- Asking for pictures one after another starts the fetches of those unknown at the beginning. -/
theorem Cache.requestAll_eq (c : Cache) (urls : List String) :
    c.requestAll urls =
      { c with
        inFlight := c.inFlight ++ (c.unknown urls).map c.fetchOf
        calls := c.calls + (c.unknown urls).length } := by
  -- The induction is on the addresses. The cache changes with each, and what is unknown with it.
  induction urls generalizing c with
  | nil => simp [requestAll, unknown]
  | cons url rest ih =>
    show (c.request url url).requestAll rest = _
    cases known : c.knows url with
    | true => rw [request_of_knows known, unknown_cons_of_knows known, ih]
    | false =>
      rw [request_of_unknown known, unknown_cons_of_unknown known, ih]
      -- The launch adds the first fetch, and what is held is the same for the others.
      simp [launch, fetchOf, Nat.add_assoc, Nat.add_comm 1]

/-! ## What the lines ask for -/

namespace Registry

/-- The address that a line asks for: it is the `url` among the arguments of a call that passes
the check of a command which places pictures. -/
def referenceUrl? (r : Registry) : Line → Option String
  | .silent => none
  | .call name tokens =>
    match r.lookup? name with
    | none => none
    | some command =>
      let checked := command.check tokens
      if command.action = .reference ∧ checked.isOk = true then checked.values.text? "url" else none

/-- The picture that a line places is told by its call, with the check and the action of its
command. -/
theorem url?_deed (r : Registry) (line : Line) : (r.deed line).url? = r.referenceUrl? line := by
  refine Option.ext fun url => ?_
  rw [r.url?_deed_iff line url]
  cases line with
  | silent => simp [referenceUrl?]
  | call name tokens =>
    cases found : r.lookup? name with
    | none => simp [referenceUrl?, found]
    | some command => simpa [referenceUrl?, found, and_assoc] using and_left_comm

/-- What a pass asks for is what the lines ask for that it gets past. -/
theorem wanted_eq (r : Registry) (view : Viewport) (lines : List Line) (cursor : Cursor)
    (cache : Cache) :
    r.wanted lines
      = ((r.traceLines view 1 lines cursor cache).verdict.passed lines).filterMap
          r.referenceUrl? := by
  have deeds : Deed.url? ∘ r.deed = r.referenceUrl? := funext r.url?_deed
  rw [r.passed_traceLines, wanted, executed, List.takeWhile_map, List.filterMap_map, deeds]
  rfl

end Registry

/-! ## The pass -/

/-- A pass leaves every entry as it is and starts a fetch for each address that a line it gets
past asks for and that is neither cached nor in flight, once, in the order in which they first
come up. Nothing else about the cache changes. A second pass, run before any fetch has ended,
starts none and is the same pass in all but its number; and so it is if the cache was asked for
other pictures in between. -/
theorem pass_starts_fetches (r : Registry) (view : Viewport) (script : String) (cache : Cache)
    (generation : Nat) :
    let pass := runPass r view script cache generation
    let asked := (pass.report.verdict.passed (readScript script)).filterMap r.referenceUrl?
    let started := (asked.filter fun url => !cache.knows url).eraseDups
    pass.cache =
      { cache with
        inFlight := cache.inFlight ++ started.map fun url => ⟨url, url, decide (url ∈ cache.held)⟩
        calls := cache.calls + started.length } ∧
    ∀ (later : Cache) (number : Nat), later.entries = pass.cache.entries →
      (∀ key, pass.cache.knows key = true → later.knows key = true) →
      let again := runPass r view script later number
      again.report = { pass.report with generation := number } ∧ again.ops = pass.ops ∧
        again.cache = later := by
  intro pass asked started
  have wanted : r.wanted (readScript script) = asked := r.wanted_eq view _ .origin cache
  have left : pass.cache = cache.requestAll asked := by
    rw [← wanted]
    exact cache_runPass r view script cache generation
  refine ⟨left.trans (cache.requestAll_eq asked), fun later number entries keeps => ?_⟩
  intro again
  -- Requests add no entry, so both passes look up the same.
  have same : ∀ key, later.get? key = cache.get? key := by
    intro key
    rw [Cache.get?, entries, left, Cache.entries_requestAll, Cache.get?]
  have alike : later.Alike id cache := .of_get? id same
  refine ⟨?_, ops_runPass_congr r view script alike number generation, ?_⟩
  · have read := read_runPass r view view script alike number
    simp only [Report.read, List.map_id] at read
    exact read
  · refine cache_runPass_of_known (fun url among => keeps url ?_) view number
    rw [left, Cache.knows_requestAll, ← wanted]
    simp [among]

/-- One picture has failed and one is on its way. Of the others one is asked for twice, under both
names of the command, and one only after the halt. In between a third party asks for another. -/
theorem pass_starts_two_fetches :
    let script :=
      "ref c.png\nref a.png\nreference d.png 1 2\nref b.png\nreference c.png\nbogus\nref e.png"
    let cache : Cache :=
      { Cache.empty with
        entries := [⟨"a.png", .failed "gone"⟩]
        inFlight := [⟨"b.png", "b.png", false⟩]
        calls := 2
        held := ["d.png"] }
    let pass := runPass builtinRegistry .initial script cache 1
    let later := pass.cache.request "z.png" "z.png"
    let again := runPass builtinRegistry .initial script later 2
    pass.report.verdict = .halted 6 ∧ pass.cache.entries = cache.entries ∧
    pass.cache.inFlight = [⟨"b.png", "b.png", false⟩, ⟨"c.png", "c.png", false⟩,
      ⟨"d.png", "d.png", true⟩] ∧
    pass.cache.calls = 4 ∧ later.entries = pass.cache.entries ∧
    (∀ key, pass.cache.knows key = true → later.knows key = true) ∧
    again.report.hints = pass.report.hints ∧ again.ops = pass.ops ∧ again.cache = later := by
  intro script cache pass later again
  have entries : later.entries = pass.cache.entries := Cache.entries_request _ _ _
  have keeps : ∀ key, pass.cache.knows key = true → later.knows key = true := by
    intro key known
    rw [Cache.knows_request, known, Bool.true_or]
  have both := pass_starts_fetches builtinRegistry .initial script cache 1
  obtain ⟨report, ops, same⟩ := both.2 later 2 entries keeps
  refine ⟨by decide +kernel, ?_, by decide +kernel, by decide +kernel, entries, keeps, ?_, ops,
    same⟩
  · rw [both.1]
  · rw [report]

end Linework
