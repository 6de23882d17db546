import Linework.Proofs.Pass.Importing
import Linework.Proofs.Session.Current
import Linework.Proofs.Session.Schedule
import Linework.Proofs.Session.Settle

/-!
# `Linework.Proofs.Session.Importing`: an imported picture on the canvas

An import starts the fetch of a picture under a name and puts a line on top of the script that is
to look the name up. Two things have to come together then. The fetch brings what its path leads
to, once the session has settled (`outcome?_of_settles`). And the line has to look up the name
that the fetch goes by, which it does if the name has no space in it and no blanks around it.

`import_draws_iff` puts both together. Whether the line looks up the name decides whether the
picture is drawn first, with the script as it was before it. A space in the name halts the pass at
the line, so nothing of the script is drawn any longer.
-/

set_option autoImplicit false

namespace Linework

/-! ## The hint of a picture that is there -/

/-- What follows a head, with the head put before it again, is the whole text. -/
theorem eq_append_of_afterHead? {head s rest : String} (h : Text.afterHead? head s = some rest) :
    s = head ++ rest := by
  unfold Text.afterHead? Text.hasHead at h
  split at h
  · rename_i begins
    obtain ⟨after, whole⟩ := List.isPrefixOf_iff_prefix.mp begins
    cases h
    apply String.toList_inj.mp
    rw [String.toList_append, String.toList_ofList, ← whole, ← String.length_toList,
      List.drop_left]
  · cases h

/-- A hint that reads like that of a picture is the hint of the picture, fresh or not. -/
theorem exists_status_of_readAsCached {hint : String} {picture : Picture}
    (h : readAsCached hint = readAsCached (EntryState.downloaded picture false).status) :
    ∃ fresh, hint = (EntryState.downloaded picture fresh).status := by
  rw [EntryState.status, readAsCached_cached, readAsCached] at h
  split at h
  · rename_i size head
    obtain rfl : size = picture.sizeLabel := (String.append_right_inj _).mp h
    exact ⟨true, eq_append_of_afterHead? head⟩
  · exact ⟨false, h⟩

section Brought

variable {c : Cache} {key : String} {picture : Picture}
  (brought : c.outcome? key = some (.downloaded picture false))
include brought

/-- The hint of a picture that was brought says so, the first time in other words than later. -/
theorem readAsCached_hint_of_brought :
    readAsCached ((Deed.picture key 0.0 0.0).hint .origin c.get?)
      = readAsCached (EntryState.downloaded picture false).status := by
  obtain ⟨state, entry, settled⟩ := Option.map_eq_some_iff.mp brought
  rw [Deed.hint, entry, ← settled, readAsCached_status_settled]

/-- A picture that was brought is drawn at the origin in its own size. -/
theorem ops_of_brought (v : Viewport) :
    (Deed.picture key 0.0 0.0).ops v .origin c.get?
      = [.drawImage picture.source (v.screenX 0.0) (v.screenY 0.0)
          (v.scale (Float.ofNat picture.width)) (v.scale (Float.ofNat picture.height))] := by
  obtain ⟨state, entry, settled⟩ := Option.map_eq_some_iff.mp brought
  have there : state.picture? = some picture := by
    rw [← EntryState.picture?_settled, settled]
    rfl
  simp only [Deed.ops, entry, Action.placePicture, there]

end Brought

namespace Cache

/-! ## The fetch of an import -/

/-- A fetch in flight is still in flight after a request. -/
theorem mem_inFlight_request {c : Cache} {f : Fetch} (hf : f ∈ c.inFlight) (key url : String) :
    f ∈ (c.request key url).inFlight := by
  rcases c.request_eq_or key url with h | h <;> rw [h]
  · exact hf
  · exact List.mem_append_left _ hf

/-- And after several. -/
theorem mem_inFlight_requestAll {c : Cache} {f : Fetch} (hf : f ∈ c.inFlight)
    (urls : List String) : f ∈ (c.requestAll urls).inFlight := by
  induction urls generalizing c with
  | nil => exact hf
  | cons url rest ih => exact ih (mem_inFlight_request hf url url)

end Cache

namespace Session

open Relation (ReflTransGen)

variable {resolve : Resolver} {s t : Session}

/-- The fetch of a name that was not known is in flight, and open unless its path is held. -/
theorem mem_inFlight_importReference {name path : String} (unknown : s.cache.knows name = false)
    (free : path ∉ s.cache.held) :
    ⟨name, path, false⟩ ∈ (s.importReference name path).cache.inFlight := by
  have launched : (s.loadReference name path).cache = s.cache.launch name path :=
    Cache.request_of_unknown unknown path
  -- The pass after the request asks for the pictures of the new script besides.
  rw [importReference, setScript, cache_rerun, launched]
  refine Cache.mem_inFlight_requestAll ?_ _
  simp [Cache.launch, free]

/-! ## Settling -/

/-- Settling is made of short turns. -/
theorem Settles.quiet {handled : Nat} (settles : Settles resolve s handled t) :
    ReflTransGen (Quiet resolve) s t := by
  have waits {s : Session} {cache : Cache}
      (drives : ReflTransGen (Cache.Drive resolve) s.processArrivals.cache cache) :
      ReflTransGen (Quiet resolve) s (s.processArrivals.withCache cache) :=
    (handleArrivals_quiet _ s).trans (quiet_of_drifts (Cache.drifts_of_drives drives))
  induction settles with
  | idle landed => exact handleArrivals_quiet _ _
  | inVain busy drives held none => exact waits drives
  | round first rest ih =>
    cases first with
    | waited busy drives came => exact ((waits drives).tail (.arrival _)).trans ih

/-- Turns do not take passes back. -/
theorem generation_le_of_quiet (steps : ReflTransGen (Quiet resolve) s t) :
    s.generation ≤ t.generation := by
  induction steps with
  | refl => exact Nat.le_refl _
  | @tail t u _ step ih =>
    cases step with
    | drift drift => exact ih
    | arrival =>
      cases queue : t.cache.queued with
      | nil => rwa [handleArrival_of_empty queue]
      | cons key rest =>
        rw [handleArrival_of_queued queue]
        show s.generation ≤ t.generation + 1
        omega

/-- Once the session has settled, an open fetch has brought what its address leads to. -/
theorem Steady.outcome?_of_settles (h : s.Steady) {handled : Nat}
    (settles : Settles resolve s handled t) {f : Fetch} (hf : f ∈ s.cache.inFlight)
    (free : f.gated = false) :
    t.cache.outcome? f.key = some (.ofOutcome false (resolve f.url)) := by
  have ahead : Ahead resolve s t := (Ahead.refl s).chain h settles.quiet
  have ordered : (f.key, f.url) ∈ s.cache.orders := List.mem_map.mpr ⟨f, hf, rfl⟩
  rcases ahead.cache.ordered f.key f.url ordered with flying | brought
  · -- What is in flight still is kept back, and this fetch is not.
    obtain ⟨g, hg, same⟩ := List.mem_map.mp flying
    rw [(settles.drained h).2.inFlight, List.mem_filter] at hg
    rw [h.kept.fetch_unique hg.1 hf (Prod.mk.inj same).1, free] at hg
    cases hg.2
  · exact brought

/-- Every reachable session is current, for it is one after a history. -/
theorem Reachable.current (h : s.Reachable) : Current s := by
  obtain ⟨registry, canvas, store, files, history, rfl⟩ := h.exists_history
  exact (current_start registry canvas store files).runEach history

/-! ## The picture first, and the script after it -/

/-- The last pass of the session placed a picture first, and went on as the pass `old` over some
lines: with the same hints but for lines that place pictures, to the same place, to the same end,
and along the same path. -/
structure ShowsFirst (picture : Picture) (lines : List Line) (old : Pass) (s : Session) : Prop where
  told : ∃ report fresh hints, s.lastReport = some report ∧
    report.hints = (EntryState.downloaded picture fresh).status :: hints ∧
    hints.length = old.report.hints.length ∧
    (∀ i : Nat, hints[i]? = old.report.hints[i]? ∨
      ∃ line, lines[i]? = some line ∧ s.registry.Calls .reference line) ∧
    report.cursor = old.report.cursor ∧ report.verdict = old.report.verdict.shift 1
  drawn : ∃ rest, s.recording.currentFrame =
      .clear :: .moveTo s.viewport.panX s.viewport.panY ::
        .drawImage picture.source (s.viewport.screenX 0.0) (s.viewport.screenY 0.0)
          (s.viewport.scale (Float.ofNat picture.width))
          (s.viewport.scale (Float.ofNat picture.height)) :: rest ∧
    DrawOp.withoutImages old.ops =
      .clear :: .moveTo s.viewport.panX s.viewport.panY :: DrawOp.withoutImages rest

section Imported

variable (found : t.registry.lookup? "reference" = some .reference) {name script : String}
  (oneLine : '\n' ∉ name.toList) (written : t.script = prependReference script name)
include found oneLine written

/-- A session at rest that has the picture under the name in the line shows it first. -/
theorem Steady.showsFirst (h : t.Steady) (current : Current t) (none : t.cache.queued = [])
    (ran : t.generation ≠ 0) (noSpace : ' ' ∉ name.toList) {picture : Picture}
    (brought : t.cache.outcome? (Text.trim name) = some (.downloaded picture false))
    (cache : Cache) (generation : Nat) :
    ShowsFirst picture (readScript script)
      (runPass t.registry t.viewport script cache generation) t := by
  have upToDate := h.upToDate none
  obtain ⟨seen, report, -⟩ := current.latest ran
  rw [written] at report
  -- The report is of a pass over some cache, which reads like one over the cache now.
  obtain ⟨hints, cursor, verdict, -⟩ := runPass_prependReference found oneLine noSpace t.viewport
    script seen t.generation
  obtain ⟨hints', -, -, ops⟩ := runPass_prependReference found oneLine noSpace t.viewport script
    t.cache t.generation
  have first : readAsCached ((Deed.picture (Text.trim name) 0.0 0.0).hint .origin seen.get?)
      = readAsCached (EntryState.downloaded picture false).status := by
    have reads := upToDate.report
    rw [if_neg ran, report, Option.map_some, Option.some_inj, pass, written] at reads
    have heads := congrArg Report.hints reads
    rw [Report.read, Report.read, hints, hints', List.map_cons, List.map_cons] at heads
    rw [List.head_eq_of_cons_eq heads, readAsCached_hint_of_brought brought]
  obtain ⟨fresh, status⟩ := exists_status_of_readAsCached first
  have same (c : Cache) := t.registry.traceLines_sameButPictures t.viewport 1 (readScript script)
    .origin c cache
  refine ⟨⟨_, fresh, _, report, hints.trans (congrArg (· :: _) status), (same seen).length,
    (same seen).hints, cursor.trans (same seen).cursor,
    verdict.trans (congrArg (Verdict.shift 1) (same seen).verdict)⟩, ?_⟩
  refine ⟨(t.registry.traceLines t.viewport 1 (readScript script) .origin t.cache).ops ++ [.stroke],
    ?_, ?_⟩
  · rw [upToDate.frame, if_neg ran, pass, written, ops, ops_of_brought brought]
    rfl
  · rw [withoutImages_ops_runPass, DrawOp.withoutImages_append, DrawOp.withoutImages_append,
      (same t.cache).ops]

end Imported

/-- A picture is imported under a name that was not known, from a path that leads to it. Its line
stands on top of the script then. The line looks up the name exactly if the name has no space in
it and no blanks around it. In that case, once the session has settled, the picture is shown
first, and after it the script as it goes by itself. A space in the name halts every pass at the
line, before anything of the script. -/
theorem import_draws_iff {s : Session} (h : s.Reachable)
    (found : s.registry.lookup? "reference" = some .reference) {name path : String}
    (oneLine : '\n' ∉ name.toList) (unknown : s.cache.knows name = false)
    (free : path ∉ s.cache.held) {resolve : Resolver} {picture : Picture}
    (leads : resolve path = .ok picture) :
    let line := Line.read ("reference " ++ name ++ " 0 0")
    let imported := s.importReference name path
    readScript imported.script = line :: readScript s.script ∧
    ((s.registry.deed line).url? = some name ↔ ' ' ∉ name.toList ∧ Text.trim name = name) ∧
    ∀ handled t, Settles resolve imported handled t →
      (' ' ∉ name.toList → Text.trim name = name → ∀ cache generation,
        ShowsFirst picture (readScript s.script)
          (runPass s.registry s.viewport s.script cache generation) t) ∧
      (' ' ∈ name.toList → ∃ report, t.lastReport = some report ∧ report.hints.length = 1 ∧
        report.verdict = .halted 1) := by
  intro line imported
  refine ⟨readScript_prependReference s.script oneLine, url?_importLine_iff found name, ?_⟩
  intro handled t settles
  -- What was imported is a session as any other, one event after `s`, so settling drains it and
  -- stays ahead of it.
  have reached : imported.Reachable :=
    h.tail (.event resolve (.input (.importReference name path)) s)
  have ahead : Ahead resolve imported t := (Ahead.refl imported).chain reached.steady settles.quiet
  have current : Current t := reached.current.chain settles.quiet
  obtain ⟨steady, drained⟩ := settles.drained reached.steady
  have registry : t.registry = s.registry := ahead.registry
  have viewport : t.viewport = s.viewport := ahead.viewport
  have script : t.script = prependReference s.script name := ahead.script
  have ran : t.generation ≠ 0 := by
    have later : s.generation + 1 ≤ t.generation := generation_le_of_quiet settles.quiet
    omega
  refine ⟨fun noSpace trimmed cache generation => ?_, fun space => ?_⟩
  · have brought := reached.steady.outcome?_of_settles settles
      (mem_inFlight_importReference unknown free) rfl
    rw [leads, ← trimmed] at brought
    rw [← registry, ← viewport]
    rw [← registry] at found
    exact steady.showsFirst found oneLine script current drained.queued ran noSpace brought cache
      generation
  · obtain ⟨seen, report, -⟩ := current.latest ran
    rw [script, registry] at report
    obtain ⟨hints, verdict, -⟩ := runPass_prependReference_of_space found oneLine space t.viewport
      s.script seen t.generation
    exact ⟨_, report, hints, verdict⟩

/-- A picture is put on top of a line, and settles there. -/
theorem import_draws_photo :
    let resolve : Resolver := fun url => .ok ⟨url, 40, 30⟩
    let s := run resolve (start builtinRegistry (640, 480) none ⟨[], []⟩)
      [.input (.setScript "h 1")]
    let t := ((s.importReference "photo.png" "/tmp/photo.png").settle resolve).2
    s.cache.knows "photo.png" = false ∧
    t.lastReport.map Report.hints = some ["downloaded, 40×30", "1×0"] ∧
    ∀ cache generation, ShowsFirst ⟨"/tmp/photo.png", 40, 30⟩ (readScript s.script)
      (runPass s.registry s.viewport s.script cache generation) t := by
  intro resolve s t
  have reachable : s.Reachable := (reachable_start _ _ _ _).run _ _
  have unknown : s.cache.knows "photo.png" = false := by decide +kernel
  have free : "/tmp/photo.png" ∉ s.cache.held := by decide +kernel
  have settles : Settles resolve (s.importReference "photo.png" "/tmp/photo.png")
      ((s.importReference "photo.png" "/tmp/photo.png").settle resolve).1 t :=
    (reachable.tail (.event resolve (.input (.importReference _ _)) s)).steady.settles_settle
  have leads : resolve "/tmp/photo.png" = .ok ⟨"/tmp/photo.png", 40, 30⟩ := rfl
  have draws := import_draws_iff reachable rfl (by decide) unknown free leads
  exact ⟨unknown, by decide +kernel, (draws.2.2 _ t settles).1 (by decide) (by decide +kernel)⟩

/-- The name of a picked file has a space in it. Its line is too many words, so the picture is not
shown, and neither is the script. -/
theorem spacedName_halts :
    let resolve : Resolver := fun url => .ok ⟨url, 40, 30⟩
    let s := run resolve (start builtinRegistry (640, 480) none ⟨[], []⟩)
      [.input (.setScript "h 1")]
    let t := ((s.importReference "my photo.png" "p.png").settle resolve).2
    s.cache.knows "my photo.png" = false ∧ resolve "p.png" = .ok ⟨"p.png", 40, 30⟩ ∧
    t.cache.get? "my photo.png" = some (.downloaded ⟨"p.png", 40, 30⟩ true) ∧
    t.lastReport.map Report.hints
      = some ["x: 'photo.png' is not a number | 1 too many arguments"] ∧
    t.lastReport.map Report.verdict = some (.halted 1) ∧
    ∀ cache generation, ¬ ShowsFirst ⟨"p.png", 40, 30⟩ (readScript s.script)
      (runPass s.registry s.viewport s.script cache generation) t := by
  intro resolve s t
  have told : t.lastReport.map Report.hints
      = some ["x: 'photo.png' is not a number | 1 too many arguments"] := by decide +kernel
  refine ⟨by decide +kernel, rfl, by decide +kernel, told, by decide +kernel, ?_⟩
  intro cache generation shows
  obtain ⟨report, fresh, hints, last, status, -⟩ := shows.told
  rw [last, Option.map_some, Option.some_inj, status] at told
  have hint := List.head_eq_of_cons_eq told
  cases fresh <;> revert hint <;> decide

end Session

end Linework
