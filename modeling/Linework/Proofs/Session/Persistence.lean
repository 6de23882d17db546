import Linework.Proofs.Session.Current
import Linework.Proofs.Storage.Saving

/-!
# `Linework.Proofs.Session.Persistence`: the script outlives the session

A session with a store saves its script with every edit and never otherwise. So as long as saving
goes well and nobody else writes at the store's path (`KeepsStore`), the store holds the script of
the session from the first edit on, and whoever opens it next restores that script.

* `Event.saves?` is the text that an event saves. Of the inputs the edits save one, and no turn
  does.
* `Untouched`: all other events leave the script, the store and the files as they are, but for
  those in which others change the files.
* `holds_runEach`: after a history the store holds what was saved last.

How the next session's pass over the script goes does not depend on its view or on its pictures
(`course_runPass`), so its report has the verdict, the cursor and the number of lines of the last
report of the session before it.
-/

set_option autoImplicit false

namespace Linework.Session

open Relation (ReflTransGen)

/-! ## What is saved -/

/-- The text that an input saves, if it saves one. A restore saves what it found. -/
def Input.saves? (i : Input) (s : Session) : Option String :=
  match i with
  | setScript text => some text
  | importReference name _ => some (prependReference s.script name)
  | restore =>
    match s.stored with
    | .ok (some text) => some text
    | .ok none | .error _ => none
  | loadReference _ _ => none
  | panBy _ _ | zoomBy _ _ | resetZoom | recenter | setViewport _ => none
  | setFiles _ => none

/-- The text that an event saves, if it saves one. Turns save nothing. -/
def Event.saves? (event : Event) (s : Session) : Option String :=
  match event with
  | input i => i.saves? s
  | turn _ => none

/-- Whether an event is a change to the files by others. -/
def Event.isForeign : Event → Bool
  | input (.setFiles _) => true
  | _ => false

/-- The text saved last in a history, if one was saved. -/
def savedAlong (s : Session) : List (Resolver × Event) → Option String
  | [] => none
  | (resolve, event) :: rest =>
    (savedAlong (event.apply resolve s) rest).or (event.saves? s)

/-- The save of an event succeeds, and others write nothing at the path. -/
def Event.KeepsStore (path : String) (event : Event) (s : Session) : Prop :=
  (∀ text ∈ event.saves? s, ((Document.save path text).run s.files).1 = .ok ()) ∧
    ∀ files, event = .input (.setFiles files) → files.read path = s.files.read path

/-- All saves of a history succeed, and others write nothing at the path. -/
def KeepsStore (path : String) (s : Session) : List (Resolver × Event) → Prop
  | [] => True
  | (resolve, event) :: rest =>
    event.KeepsStore path s ∧ KeepsStore path (event.apply resolve s) rest

/-! ## What is left alone -/

/-- Script, store and files are as they were, and so are the commands. -/
structure Untouched (s t : Session) : Prop where
  script : t.script = s.script
  files : t.files = s.files
  store : t.store = s.store
  registry : t.registry = s.registry

/-- What is left alone twice is left alone. -/
theorem Untouched.trans {s t u : Session} (h : Untouched s t) (h' : Untouched t u) :
    Untouched s u where
  script := h'.script.trans h.script
  files := h'.files.trans h.files
  store := h'.store.trans h.store
  registry := h'.registry.trans h.registry

/-- A short turn saves nothing and reads no file: the pass for an arrival is over the script as it
is. -/
theorem Quiet.untouched {resolve : Resolver} {s t : Session} (h : Quiet resolve s t) :
    Untouched s t := by
  cases h with
  | drift => exact ⟨rfl, rfl, rfl, rfl⟩
  | arrival =>
    cases queue : s.cache.queued with
    | nil =>
      rw [handleArrival_of_empty queue]
      exact ⟨rfl, rfl, rfl, rfl⟩
    | cons key rest =>
      rw [handleArrival_of_queued queue]
      exact ⟨rfl, rfl, rfl, rfl⟩

/-- Every turn leaves script and files alone, being a chain of short ones. -/
theorem Turn.untouched (resolve : Resolver) (turn : Turn) (s : Session) :
    Untouched s (turn.apply resolve s) := by
  have steps : ReflTransGen (Quiet resolve) s _ := turn_quiet turn s
  generalize turn.apply resolve s = t at steps
  induction steps with
  | refl => exact ⟨rfl, rfl, rfl, rfl⟩
  | tail _ step ih => exact ih.trans step.untouched

/-- A restore that finds nothing, or fails, does nothing. -/
theorem restore_of_not_ok {s : Session} (h : s.restore.1 ≠ .ok true) : s.restore.2 = s := by
  unfold Session.restore at h ⊢
  split
  · rename_i text found
    simp [found] at h
  · rfl
  · rfl

/-- An event that saves nothing leaves script and files alone, unless it is others' doing. -/
theorem Event.untouched (resolve : Resolver) {event : Event} {s : Session}
    (saves : event.saves? s = none) (own : event.isForeign = false) :
    Untouched s (event.apply resolve s) := by
  cases event with
  | turn turn => exact turn.untouched resolve s
  | input i =>
    cases i with
    | setScript text => cases saves
    | importReference name path => cases saves
    | setFiles files => cases own
    | restore =>
      have missed : s.restore.1 ≠ .ok true := by
        unfold Session.restore
        intro found
        split at found
        · rename_i text stored
          simp [Event.saves?, Input.saves?, stored] at saves
        · cases found
        · cases found
      show Untouched s s.restore.2
      rw [restore_of_not_ok missed]
      exact ⟨rfl, rfl, rfl, rfl⟩
    | _ => exact ⟨rfl, rfl, rfl, rfl⟩

/-- An event that saves a text makes it the script, in a pass. -/
theorem Event.apply_of_saves (resolve : Resolver) {event : Event} {s : Session} {text : String}
    (saves : event.saves? s = some text) :
    (event.apply resolve s).script = text ∧
      (event.apply resolve s).files = s.filesAfterSaving text ∧
      (event.apply resolve s).store = s.store ∧ (event.apply resolve s).registry = s.registry ∧
      (event.apply resolve s).generation = s.generation + 1 := by
  cases event with
  | turn turn => cases saves
  | input i =>
    cases i with
    | setScript text =>
      cases saves
      exact ⟨rfl, rfl, rfl, rfl, rfl⟩
    | importReference name path =>
      cases saves
      exact ⟨rfl, rfl, rfl, rfl, rfl⟩
    | restore =>
      simp only [Event.saves?, Input.saves?] at saves
      split at saves
      · rename_i found stored
        cases saves
        have restored : Event.apply resolve (.input .restore) s = s.setScript text := by
          show s.restore.2 = _
          rw [Session.restore, stored]
        rw [restored]
        exact ⟨rfl, rfl, rfl, rfl, rfl⟩
      · cases saves
      · cases saves
    | _ => cases saves

/-! ## What the store holds -/

/-- What can be loaded from the path. -/
def loaded (path : String) (s : Session) : Except Failure (Option String) :=
  ((Document.load path).run s.files).1

/-- The session was run over a text and the store holds it. -/
structure Holds (path text : String) (s : Session) : Prop where
  script : s.script = text
  loaded : s.loaded path = .ok (some text)
  ran : s.generation ≠ 0

/-- What can be loaded depends on what is read at the path, and on nothing else of the files. -/
theorem loaded_congr {path : String} {s t : Session} (h : t.files.read path = s.files.read path) :
    t.loaded path = s.loaded path := by
  simp only [loaded, Document.load, FileProgram.run, h]
  cases s.files.read path with
  | error e => cases e <;> rfl
  | ok data =>
    simp only
    split <;> rfl

variable {path : String}

/-- What neither saves nor comes from others keeps the store. -/
theorem Event.keepsStore_of_own (path : String) {event : Event} {s : Session}
    (saves : event.saves? s = none) (own : event.isForeign = false) : event.KeepsStore path s := by
  refine ⟨by simp [saves], ?_⟩
  rintro files rfl
  cases own

/-- After an event the store holds the text that the event saved, or what it held before. -/
theorem Event.holds_apply (resolve : Resolver) {event : Event} {s : Session}
    (store : s.store = some path) (kept : event.KeepsStore path s) :
    (event.apply resolve s).store = some path ∧
      (event.apply resolve s).registry = s.registry ∧
      (∀ text, event.saves? s = some text → Holds path text (event.apply resolve s)) ∧
      (event.saves? s = none → (event.apply resolve s).script = s.script ∧
        (event.apply resolve s).loaded path = s.loaded path) := by
  cases saves : event.saves? s with
  | some text =>
    obtain ⟨script, files, store', registry, generation⟩ := event.apply_of_saves resolve saves
    refine ⟨store'.trans store, registry, ?_, nofun⟩
    rintro _ ⟨⟩
    refine ⟨script, ?_, by omega⟩
    have saved : (Document.save path text).run s.files = (.ok (), s.filesAfterSaving text) := by
      rw [filesAfterSaving, store]
      exact Prod.ext (kept.1 text saves) rfl
    rw [loaded, files, Document.load_of_save saved]
  | none =>
    -- An event that saves nothing leaves the files alone, or is others' doing, who do not write
    -- at the path.
    cases foreign : event.isForeign with
    | false =>
      have same := event.untouched resolve saves foreign
      refine ⟨same.store.trans store, same.registry, nofun, fun _ => ⟨same.script, ?_⟩⟩
      exact loaded_congr (by rw [same.files])
    | true =>
      match event, foreign with
      | .input (.setFiles files), _ =>
        exact ⟨store, rfl, nofun, fun _ => ⟨rfl, loaded_congr (kept.2 files rfl)⟩⟩

/-- After a history the store holds the text that was saved last, or what it held before. -/
theorem holds_runEach {s : Session} (store : s.store = some path)
    {history : List (Resolver × Event)} (kept : s.KeepsStore path history) :
    (s.runEach history).store = some path ∧ (s.runEach history).registry = s.registry ∧
      (∀ text, s.savedAlong history = some text → Holds path text (s.runEach history)) ∧
      (s.savedAlong history = none → (s.runEach history).script = s.script ∧
        (s.runEach history).loaded path = s.loaded path) := by
  -- The induction is on the history. What the events after the first saved counts before what the
  -- first one did.
  induction history generalizing s with
  | nil => exact ⟨store, rfl, nofun, fun _ => ⟨rfl, rfl⟩⟩
  | cons x rest ih =>
    obtain ⟨resolve, event⟩ := x
    obtain ⟨store', registry', saved, unsaved⟩ := event.holds_apply resolve store kept.1
    obtain ⟨store'', registry'', later, nothing⟩ := ih store' kept.2
    refine ⟨store'', registry''.trans registry', fun text last => ?_, fun last => ?_⟩
    · rcases Option.or_eq_some_iff.mp last with after | ⟨none, here⟩
      · exact later text after
      · -- Saved by this event, and by none after it.
        obtain ⟨script, loaded⟩ := nothing none
        have first := saved text here
        refine ⟨script.trans first.script, loaded.trans first.loaded, ?_⟩
        have counted := generation_runEach (event.apply resolve s) rest
        have ran := first.ran
        show ((event.apply resolve s).runEach rest).generation ≠ 0
        omega
    · obtain ⟨none, here⟩ := Option.or_eq_none_iff.mp last
      obtain ⟨script, loaded⟩ := nothing none
      obtain ⟨script', loaded'⟩ := unsaved here
      exact ⟨script.trans script', loaded.trans loaded'⟩

/-! ## The next session -/

/-- A session that finds a text in its store restores it, in a pass. -/
theorem restore_of_loaded {s : Session} {text : String} (store : s.store = some path)
    (found : s.loaded path = .ok (some text)) : s.restore = (.ok true, s.setScript text) := by
  have stored : s.stored = .ok (some text) := by
    rw [Session.stored, store]
    exact found
  rw [Session.restore, stored]

/-- Whatever happens to a session with a store, as long as its saves succeed and nobody else writes
at the store's path. Once an edit has been made, what can be loaded from the store is the script as
it is now; and any session over the same store, with whatever view and pictures, restores that
script, in a pass that goes as the latest pass went. Without an edit the store is as it was found.
An event that is no edit leaves the files as they are, unless it is others' doing, and so does a
restore that finds nothing or fails: it leaves all of the session as it was. -/
theorem script_outlives_session (registry : Registry) (canvas : UInt32 × UInt32) (path : String)
    (files : FileSystem) (history : List (Resolver × Event))
    (kept : (start registry canvas (some path) files).KeepsStore path history) :
    let first := start registry canvas (some path) files
    let s := first.runEach history
    (∀ text, first.savedAlong history = some text →
      s.script = text ∧ ((Document.load path).run s.files).1 = .ok (some text) ∧
      ∀ next : Session, next.registry = registry → next.store = some path → next.files = s.files →
        next.restore.1 = .ok true ∧ next.restore.2.script = text ∧
        ∃ report last, next.restore.2.lastReport = some report ∧ s.lastReport = some last ∧
          report.verdict = last.verdict ∧ report.cursor = last.cursor ∧
          report.lines = last.lines) ∧
    (first.savedAlong history = none →
      s.script = "" ∧
        ((Document.load path).run s.files).1 = ((Document.load path).run files).1) ∧
    (∀ (resolve : Resolver) (event : Event), event.saves? s = none → event.isForeign = false →
      (event.apply resolve s).files = s.files) ∧
    (s.restore.1 ≠ .ok true → s.restore.2 = s) := by
  intro first s
  obtain ⟨-, registry', saved, unsaved⟩ := holds_runEach (s := first) rfl kept
  refine ⟨fun text last => ?_, unsaved, fun resolve event saves own => ?_, restore_of_not_ok⟩
  · obtain ⟨script, loaded, ran⟩ := saved text last
    refine ⟨script, loaded, fun next commands there same => ?_⟩
    have found : next.loaded path = .ok (some text) := by
      rw [loaded_congr (s := s) (by rw [same])]
      exact loaded
    have current : Current s := (current_start registry canvas (some path) files).runEach history
    obtain ⟨cache, report, -⟩ := current.latest ran
    rw [restore_of_loaded there found]
    refine ⟨rfl, rfl, _, _, rfl, report, ?_⟩
    -- The two passes are over one script, with other views and pictures.
    have course := course_runPass registry next.viewport s.viewport text next.cache cache
      (next.generation + 1) s.generation
    have same : s.registry = registry := registry'
    rw [same, script]
    simpa [Report.course, setScript, rerun, commands] using course
  · exact (event.untouched resolve saves own).files

/-- Two edits in a directory that is made for the store, with a change of the view, an arrival that
is handled and other people's files in between. -/
def busyHistory : List (Resolver × Event) :=
  let resolve : Resolver := fun url => .ok ⟨url, 4, 3⟩
  [(resolve, .input (.setScript "v 7\nbogus")),
    (resolve, .input (.setFiles ⟨[(["home", "notes"], .file "mine".toUTF8), (["home"], .directory),
      (["home", "conf"], .directory),
      (["home", "conf", "script.thtm"], .file "v 7\nbogus".toUTF8)], ["home"]⟩)),
    (resolve, .input (.importReference "b" "b.png")), (resolve, .turn (.finish "b")),
    (resolve, .turn .handleArrival), (resolve, .input (.setViewport ⟨7.0, 9.0, 2.0⟩))]

/-- The script of the busy session, which halts at its third line, is restored by a session with
another canvas, and goes as it went. -/
theorem busyHistory_restored :
    let first := start builtinRegistry (640, 480) (some "conf/script.thtm")
      ⟨[(["home"], .directory)], ["home"]⟩
    let s := first.runEach busyHistory
    let next := start builtinRegistry (320, 200) (some "conf/script.thtm") s.files
    first.KeepsStore "conf/script.thtm" busyHistory ∧
      ((Document.load "conf/script.thtm").run s.files).1
        = .ok (some "reference b 0 0\nv 7\nbogus") ∧
      next.restore.1 = .ok true ∧ next.restore.2.script = s.script ∧
      ∃ report last, next.restore.2.lastReport = some report ∧ s.lastReport = some last ∧
        last.verdict = .halted 3 ∧ report.verdict = last.verdict ∧ report.cursor = last.cursor ∧
        report.lines = last.lines := by
  intro first s next
  have kept : first.KeepsStore "conf/script.thtm" busyHistory := by
    refine ⟨⟨?_, nofun⟩, ?_⟩
    · rintro _ ⟨⟩
      decide +kernel
    refine ⟨⟨nofun, ?_⟩, ?_⟩
    · rintro _ ⟨⟩
      decide +kernel
    refine ⟨⟨?_, nofun⟩, ?_⟩
    · rintro _ ⟨⟩
      decide +kernel
    exact ⟨Event.keepsStore_of_own _ rfl rfl, Event.keepsStore_of_own _ rfl rfl,
      Event.keepsStore_of_own _ rfl rfl, trivial⟩
  have last : first.savedAlong busyHistory = some "reference b 0 0\nv 7\nbogus" := rfl
  obtain ⟨script, loaded, restored⟩ := (script_outlives_session builtinRegistry (640, 480)
    "conf/script.thtm" ⟨[(["home"], .directory)], ["home"]⟩ busyHistory kept).1 _ last
  have files : next.files = s.files := by simp only [next, start]
  obtain ⟨told, same, report, latest, new, old, verdict, cursor, lines⟩ :=
    restored next rfl rfl files
  have halted : (first.runEach busyHistory).lastReport.map Report.verdict = some (.halted 3) := by
    decide +kernel
  obtain ⟨other, found, halts⟩ := Option.map_eq_some_iff.mp halted
  obtain rfl : latest = other := Option.some.inj (old.symm.trans found)
  exact ⟨kept, loaded, told, same.trans script.symm, report, latest, new, old, halts, verdict,
    cursor, lines⟩

end Linework.Session
