import Linework.Proofs.Pass.Hint

/-!
# `Linework.Proofs.Pass.Pictures`: passes and the cache

A pass reads the cache and asks for pictures. It asks for those that its lines
place before one of them fails, in order (`cache_runPass`), and these do not
depend on the cache. So a pass over a cache that knows them all leaves it as it is
(`cache_runPass_of_known`).

What a pass reads are the entries, of which it shows the status and draws the
picture:

* `read_runPass` / `ops_runPass_congr`: passes over caches that a reading of hints
  cannot tell apart have reports that it cannot tell apart, whatever the views, and from
  the same view they draw the same.
* `downloadingHint_not_mem_runPass`: a pass over a cache that has an entry for each of its
  pictures shows none of them as on its way.
* `course_runPass`: how a pass ends and where it leaves the cursor has nothing to do with
  pictures or with the view.
-/

set_option autoImplicit false

namespace Linework

/-! ## What a pass asks for -/

namespace Registry

/-- A line that fails ends what is wanted. Any other one wants its picture, if it places one, and
then what the lines after it want. -/
theorem wanted_cons (r : Registry) (line : Line) (rest : List Line) :
    r.wanted (line :: rest)
      = if (r.deed line).fails then [] else (r.deed line).url?.toList ++ r.wanted rest := by
  rw [wanted, executed, List.map_cons, List.takeWhile_cons]
  cases (r.deed line).fails with
  | true => rfl
  | false =>
    show List.filterMap Deed.url? (r.deed line :: r.executed rest) = _
    cases hu : (r.deed line).url? with
    | none => rw [List.filterMap_cons_none hu]; rfl
    | some url => rw [List.filterMap_cons_some hu]; rfl

/-- Going through lines asks for the pictures wanted, and does nothing else to the
cache. -/
theorem cache_traceLines (r : Registry) (view : Viewport) (number : Nat) (lines : List Line)
    (cursor : Cursor) (cache : Cache) :
    (r.traceLines view number lines cursor cache).cache = cache.requestAll (r.wanted lines) := by
  -- The induction is on the lines, and the cache that each line leaves is the one that the next
  -- is asked with.
  induction lines generalizing number cursor cache with
  | nil => rfl
  | cons line rest ih =>
    rw [traceLines_cons, wanted_cons]
    by_cases hf : (r.deed line).fails = true
    · rw [if_pos hf, if_pos hf]
      rfl
    · rw [if_neg hf, if_neg hf, Trace.cache_after, ih, Cache.requestAll_append]

end Registry

/-- A pass asks for the pictures that the script wants. -/
theorem cache_runPass (r : Registry) (view : Viewport) (script : String) (cache : Cache)
    (generation : Nat) :
    (runPass r view script cache generation).cache
      = cache.requestAll (r.wanted (readScript script)) :=
  r.cache_traceLines view 1 (readScript script) .origin cache

/-- A pass over a cache that knows every picture wanted leaves the cache as it is. -/
theorem cache_runPass_of_known {r : Registry} {script : String} {cache : Cache}
    (known : ∀ url ∈ r.wanted (readScript script), cache.knows url = true) (view : Viewport)
    (generation : Nat) : (runPass r view script cache generation).cache = cache := by
  rw [cache_runPass, Cache.requestAll_of_known known]

/-! ## What a pass reads -/

/-- Two caches that a reading of hints cannot tell apart: under every key there is an
entry in both or in neither, the two hints read the same, and so do the pictures. -/
def Cache.Alike (read : String → String) (c d : Cache) : Prop :=
  ∀ key, (c.get? key).map (fun s => (read s.status, s.picture?))
    = (d.get? key).map (fun s => (read s.status, s.picture?))

/-- Caches with the same entries are alike in every reading. -/
theorem Cache.Alike.of_get? {c d : Cache} (read : String → String)
    (same : ∀ key, c.get? key = d.get? key) : c.Alike read d :=
  fun key => by rw [same key]

/-- Caches whose entries differ in freshness only are alike when fresh pictures are read
as cached. -/
theorem Cache.Alike.of_outcome? {c d : Cache} (same : ∀ key, c.outcome? key = d.outcome? key) :
    c.Alike readAsCached d := by
  -- Both fields can be read off the settled entry.
  have through (e : Option EntryState) :
      e.map (fun s => (readAsCached s.status, s.picture?))
        = (e.map EntryState.settled).map fun s => (readAsCached s.status, s.picture?) := by
    cases e with
    | none => rfl
    | some state =>
      rw [Option.map_some, Option.map_some, Option.map_some, readAsCached_status_settled,
        EntryState.picture?_settled]
  intro key
  rw [through (c.get? key), ← outcome?, same key, outcome?, ← through (d.get? key)]

/-- Requests made of two alike caches leave them alike, for requests show in no lookup. -/
theorem Cache.Alike.requestAll {read : String → String} {c d : Cache} (h : c.Alike read d)
    (urls : List String) : (c.requestAll urls).Alike read (d.requestAll urls) := by
  intro key
  rw [get?_requestAll, get?_requestAll]
  exact h key

namespace Deed

/-- Hints over alike caches read the same. -/
theorem read_hint_congr {read : String → String} {c d : Cache} (alike : c.Alike read d)
    (deed : Deed) (cursor : Cursor) :
    read (deed.hint cursor c.get?) = read (deed.hint cursor d.get?) := by
  -- Only the hint of a picture is looked up.
  cases deed with
  | picture url x y =>
    have same := alike url
    rw [hint, hint]
    cases hc : c.get? url with
    | none =>
      rw [hc, Option.map_none, eq_comm, Option.map_eq_none_iff] at same
      rw [same]
    | some state =>
      rw [hc, Option.map_some, eq_comm, Option.map_eq_some_iff] at same
      obtain ⟨other, found, same⟩ := same
      rw [found]
      exact (congrArg Prod.fst same).symm
  | _ => rfl

/-- Over alike caches the same is drawn. -/
theorem ops_congr {read : String → String} {c d : Cache} (alike : c.Alike read d) (deed : Deed)
    (view : Viewport) (cursor : Cursor) :
    deed.ops view cursor c.get? = deed.ops view cursor d.get? := by
  cases deed with
  | picture url x y =>
    have same := alike url
    rw [ops, ops]
    cases hc : c.get? url with
    | none =>
      rw [hc, Option.map_none, eq_comm, Option.map_eq_none_iff] at same
      rw [same]
    | some state =>
      rw [hc, Option.map_some, eq_comm, Option.map_eq_some_iff] at same
      obtain ⟨other, found, same⟩ := same
      have picture : other.picture? = state.picture? := congrArg Prod.snd same
      rw [found]
      show Action.placePicture view x y state = Action.placePicture view x y other
      rw [Action.placePicture, Action.placePicture, picture]
  | _ => rfl

end Deed

/-- Two traces that a reading of hints cannot tell apart but for what they draw. -/
structure Trace.Alike (read : String → String) (t u : Trace) : Prop where
  hints : t.hints.map read = u.hints.map read
  verdict : t.verdict = u.verdict
  cursor : t.cursor = u.cursor

/-- Lines that fail with hints that read the same leave alike traces. -/
theorem Trace.Alike.failed {read : String → String} (number : Nat) {a b : String} {c d : Cache}
    (cursor : Cursor) (hint : read a = read b) :
    (Trace.failed number a cursor c).Alike read (Trace.failed number b cursor d) :=
  ⟨congrArg (fun h => [h]) hint, rfl, rfl⟩

/-- A line whose hints read the same comes before alike traces in alike ones. -/
theorem Trace.Alike.after {read : String → String} {t u : Trace} (h : t.Alike read u)
    {a b : Effect} (hint : read a.hint = read b.hint) :
    (Trace.after a t).Alike read (Trace.after b u) :=
  ⟨congrArg₂ List.cons hint h.hints, h.verdict, h.cursor⟩

namespace Registry

/-- Traces over alike caches are alike, whatever the views. -/
theorem traceLines_alike {read : String → String} (r : Registry) (v w : Viewport) (number : Nat)
    (lines : List Line) (cursor : Cursor) {c d : Cache} (alike : c.Alike read d) :
    (r.traceLines v number lines cursor c).Alike read (r.traceLines w number lines cursor d) := by
  induction lines generalizing number cursor c d with
  | nil => exact ⟨rfl, rfl, rfl⟩
  | cons line rest ih =>
    have first := (r.deed line).read_hint_congr alike cursor
    -- What the first line asks for leaves the caches alike.
    have others := ih (number + 1) ((r.deed line).target cursor)
      (alike.requestAll (r.deed line).url?.toList)
    rw [traceLines_cons, traceLines_cons]
    by_cases hf : (r.deed line).fails = true
    · rw [if_pos hf, if_pos hf]
      exact .failed number cursor first
    · rw [if_neg hf, if_neg hf]
      exact others.after first

/-- Over alike caches the same is drawn. -/
theorem ops_traceLines_congr {read : String → String} (r : Registry) (view : Viewport)
    (number : Nat) (lines : List Line) (cursor : Cursor) {c d : Cache} (alike : c.Alike read d) :
    (r.traceLines view number lines cursor c).ops = (r.traceLines view number lines cursor d).ops := by
  induction lines generalizing number cursor c d with
  | nil => rfl
  | cons line rest ih =>
    rw [traceLines_cons, traceLines_cons]
    by_cases hf : (r.deed line).fails = true
    · rw [if_pos hf, if_pos hf]
      rfl
    · rw [if_neg hf, if_neg hf, Trace.ops_after, Trace.ops_after, (r.deed line).ops_congr alike,
        ih _ _ (alike.requestAll _)]

/-- Going through lines whose pictures are all known shows none of them as on its way. -/
theorem downloadingHint_not_mem_traceLines (r : Registry) (view : Viewport) (number : Nat)
    (lines : List Line) (cursor : Cursor) (cache : Cache)
    (known : ∀ url ∈ r.wanted lines, (cache.get? url).isSome = true) :
    downloadingHint ∉ (r.traceLines view number lines cursor cache).hints := by
  induction lines generalizing number cursor cache with
  | nil => exact List.not_mem_nil
  | cons line rest ih =>
    rw [wanted_cons] at known
    rw [traceLines_cons]
    by_cases hf : (r.deed line).fails = true
    · rw [if_pos hf, Trace.hints_failed, List.mem_singleton]
      exact (r.hint_ne_downloadingHint_of_fails hf cursor _).symm
    · rw [if_neg hf] at known ⊢
      have first := Deed.hint_ne_downloadingHint (Bool.eq_false_iff.mpr hf) cursor
        fun url h => known url (List.mem_append_left _ (Option.mem_toList.mpr h))
      -- What the first line asks for adds no entry and takes none away, so the others still find
      -- theirs.
      have others := ih (number + 1) ((r.deed line).target cursor)
        (cache.requestAll (r.deed line).url?.toList) fun url h => by
          rw [Cache.get?_requestAll]
          exact known url (List.mem_append_right _ h)
      rw [Trace.hints_after]
      exact List.not_mem_cons_of_ne_of_not_mem first.symm others

end Registry

/-! ## The account of a pass -/

/-- A report with its hints read in some way. -/
def Report.read (read : String → String) (r : Report) : Report :=
  { r with hints := r.hints.map read }

/-- Passes over alike caches have reports that read the same, whatever the views. -/
theorem read_runPass {read : String → String} (r : Registry) (v w : Viewport) (script : String)
    {c d : Cache} (alike : c.Alike read d) (generation : Nat) :
    (runPass r v script c generation).report.read read
      = (runPass r w script d generation).report.read read := by
  have traces := r.traceLines_alike v w 1 (readScript script) .origin alike
  simp only [Report.read, runPass, traces.hints, traces.verdict, traces.cursor]

/-- Over alike caches a pass draws the same. -/
theorem ops_runPass_congr {read : String → String} (r : Registry) (view : Viewport)
    (script : String) {c d : Cache} (alike : c.Alike read d) (generation generation' : Nat) :
    (runPass r view script c generation).ops = (runPass r view script d generation').ops := by
  simp only [runPass, r.ops_traceLines_congr view 1 (readScript script) .origin alike]

/-- A pass over a cache with an entry for every picture wanted shows none of them as on
its way. -/
theorem downloadingHint_not_mem_runPass {r : Registry} {script : String} {cache : Cache}
    (known : ∀ url ∈ r.wanted (readScript script), (cache.get? url).isSome = true)
    (view : Viewport) (generation : Nat) :
    downloadingHint ∉ (runPass r view script cache generation).report.hints :=
  r.downloadingHint_not_mem_traceLines view 1 (readScript script) .origin cache known

/-! ## The course of a pass -/

/-- How a pass went: its verdict, its cursor, and how many lines there were. -/
def Report.course (r : Report) : Verdict × Cursor × Nat := (r.verdict, r.cursor, r.lines)

/-- Lines halt at the same place and leave the cursor in the same place, over any caches and from
any views. -/
theorem Registry.course_traceLines (r : Registry) (v w : Viewport) (number : Nat)
    (lines : List Line) (cursor : Cursor) (c d : Cache) :
    (r.traceLines v number lines cursor c).verdict = (r.traceLines w number lines cursor d).verdict ∧
      (r.traceLines v number lines cursor c).cursor
        = (r.traceLines w number lines cursor d).cursor := by
  -- Which line fails and where each leaves the cursor is read off the deeds alone.
  induction lines generalizing number cursor c d with
  | nil => exact ⟨rfl, rfl⟩
  | cons line rest ih =>
    rw [traceLines_cons, traceLines_cons]
    by_cases hf : (r.deed line).fails = true
    · simp [hf, Trace.failed]
    · simp only [hf, Bool.false_eq_true, if_false]
      exact ih _ _ _ _

/-- A pass goes the same course from every view and over every cache. -/
theorem course_runPass (r : Registry) (v w : Viewport) (script : String) (c d : Cache)
    (n m : Nat) :
    (runPass r v script c n).report.course = (runPass r w script d m).report.course := by
  obtain ⟨verdict, cursor⟩ := r.course_traceLines v w 1 (readScript script) .origin c d
  simp [Report.course, runPass, verdict, cursor]

end Linework
