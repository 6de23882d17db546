import Linework.CommandLine.Execute
import Linework.Proofs.Storage.SettingsFile

/-!
# `Linework.Proofs.CommandLine.Remembering`: the settings after a document was opened or saved

Opening or saving a document ends in remembering it: the settings are written back with the document
in them. `settings_kept_iff` says when that loses nothing else. Settings that were accepted are
accepted afterwards and differ in the document alone (`SettingsKept`). A file that was not accepted,
say one of a newer version, is taken for the defaults when the program starts, and then the defaults
are written in its place. It stays as it was only if nothing can be written beside it.

The document itself is written first. Wherever that is, the settings file is not touched by it
(`BesideSettings`), for it has another name, and where there is no directory there is nothing below.
-/

set_option autoImplicit false

namespace Linework.CommandLine

open FileSystem Document

/-! ## The document is written beside the settings -/

/-- The directory of the settings is found where it was, and the settings file is as it was. So is
what is at the name that a new one would be written under. -/
structure BesideSettings (dir : String) (loc : Location) (fs after : FileSystem) : Prop where
  opens : after.Opens dir loc
  file : after.node? (loc ++ ["settings.json"]) = fs.node? (loc ++ ["settings.json"])
  new : after.node? (loc ++ ["settings.json.tmp"]) = fs.node? (loc ++ ["settings.json.tmp"])

section Writing

variable {dir : String} {loc : Location} {fs after : FileSystem}

/-- What happens away from the settings file, its backup and its new file is beside the
settings. -/
theorem BesideSettings.of_agreesOff {hidden : List Location} (opens : after.Opens dir loc)
    (agrees : AgreesOff hidden fs after)
    (apart : ∀ above ∈ hidden, ∀ ending ∈ ["", ".tmp", ".bak"],
      ¬ above <+: loc ++ ["settings.json" ++ ending]) : BesideSettings dir loc fs after where
  opens := opens
  file := agrees.node _ fun ⟨above, among, below⟩ => apart above among "" (by simp) below
  new := agrees.node _ fun ⟨above, among, below⟩ => apart above among ".tmp" (by simp) below

/-- No document has the name of the settings. Their backups and their new files have different
names, too. -/
theorem document_ne_settings (stem : String) {ending other : String}
    (known : ending ∈ ["", ".tmp", ".bak"]) (named : other ∈ ["", ".tmp", ".bak"]) :
    stem ++ ".thtm" ++ ending ≠ "settings.json" ++ other := by
  -- Nine pairs of endings, and in each of them the one name does not end as the other does.
  have apart : ∀ ending ∈ ["", ".tmp", ".bak"], ∀ other ∈ ["", ".tmp", ".bak"],
      (".thtm" ++ ending).toList.isSuffixOf ("settings.json" ++ other).toList = false := by decide
  intro same
  have last := apart ending known other named
  rw [← same, ← Bool.not_eq_true, List.isSuffixOf_iff_suffix] at last
  exact last ⟨stem.toList, by simp⟩

/-- The name of the stored script. -/
theorem leads_scriptPath (opens : fs.Opens dir loc) :
    fs.Leads (Places.scriptPath dir) loc "script.thtm" :=
  opens.leads (by decide) (Path.ordinary_of_length (by decide))

/-- Where the script can be replaced, the directory of the settings is found. -/
theorem exists_besideSettings_of_script {data : ByteArray}
    (written : (atomicWrite (Places.scriptPath dir) data).run fs = (.ok (), after)) :
    ∃ loc, fs.Opens dir loc ∧ BesideSettings dir loc fs after := by
  obtain ⟨loc, name, hidden, before, later, changed, agrees, -⟩ :=
    exists_agreesOff_of_atomicWrite written
  have noSlash : '/' ∉ "script.thtm".toList := by decide
  obtain ⟨opens, rfl⟩ := opens_of_leads before.leads noSlash
  refine ⟨loc, opens, .of_agreesOff (opens_of_leads later.leads noSlash).1 agrees ?_⟩
  intro above among other named below
  obtain ⟨ending, known, rfl⟩ := changed above among
  exact not_prefix_of_ne (document_ne_settings "script" known named) below

/-- The script is kept in the directory of the settings, under a name of its own. -/
theorem besideSettings_of_save {text : String} (opens : fs.Opens dir loc)
    (saved : (Document.save (Places.scriptPath dir) text).run fs = (.ok (), after)) :
    BesideSettings dir loc fs after := by
  have written := run_save_of_leads (leads_scriptPath opens) saved
  obtain ⟨place, opens', beside⟩ := exists_besideSettings_of_script written
  obtain rfl : loc = place := walk_unique opens.reached opens'.reached
  exact beside

/-- The name of a document's file has the extension of documents. -/
theorem exists_documentPath_eq (place : Option String) (name : String) (now : Int) :
    ∃ stem, documentPath place name now = stem ++ ".thtm" := by
  obtain ⟨stem, ends⟩ := isSuffix_saveFileName name documentExtension (.ofUnixSeconds now)
  have named : saveFileName name documentExtension (.ofUnixSeconds now)
      = String.ofList stem ++ ".thtm" := by
    apply String.toList_inj.mp
    rw [← ends]
    simp [documentExtension]
  rw [documentPath, Path.join, named]
  -- The file's name is all of the path, or comes after the directory's name and, if need be, a
  -- slash.
  split_ifs
  · exact ⟨String.ofList stem, rfl⟩
  · exact ⟨_, String.append_assoc.symm⟩
  · exact ⟨_, String.append_assoc.symm⟩

/-- A document's path leads to a file with that extension, for there is no slash in it. -/
theorem exists_eq_of_leads_document {place : Option String} {name last : String} {now : Int}
    {spot : Location} (leads : fs.Leads (documentPath place name now) spot last) :
    ∃ stem, last = stem ++ ".thtm" := by
  obtain ⟨stem, path⟩ := exists_documentPath_eq place name now
  obtain ⟨above, spelled, -⟩ := leads.spelled
  obtain ⟨above', first, split⟩ :=
    List.eq_nil_or_concat (Path.names stem) |>.resolve_left (Path.names_ne_nil stem)
  rw [List.concat_eq_append] at split
  -- The extension is added to the last name.
  rw [path, Path.names_append_of_no_slash split (by decide)] at spelled
  exact ⟨first, by simpa using (List.append_inj_right' spelled rfl).symm⟩

/-- A document may be written anywhere, but not in place of a directory. -/
theorem besideSettings_of_document {place : Option String} {name : String} {now : Int}
    {data : ByteArray} (rooted : fs.Rooted) (opens : fs.Opens dir loc)
    (clear : fs.find (documentPath place name now) ≠ .ok .directory)
    (written : (atomicWrite (documentPath place name now) data).run fs = (.ok (), after)) :
    BesideSettings dir loc fs after := by
  obtain ⟨spot, last, hidden, before, later, changed, agrees, closed⟩ :=
    exists_agreesOff_of_atomicWrite written
  have closed := closed clear
  have visible := rooted.visible closed opens.directory
  have start : after.startOf dir = fs.startOf dir := startOf_congr agrees.current dir
  -- What was moved is no directory, so the directory of the settings is found on the same way.
  have opens' : after.Opens dir loc :=
    ⟨(agrees.node loc visible).trans opens.directory,
      start ▸ walk_of_agreesOff agrees closed opens.reached visible⟩
  obtain ⟨stem, rfl⟩ := exists_eq_of_leads_document before.leads
  refine .of_agreesOff opens' agrees fun above among other named below => ?_
  rcases List.prefix_concat_iff.mp below with same | above_dir
  · -- The names are different.
    obtain ⟨ending, known, rfl⟩ := changed above among
    exact document_ne_settings stem known named (by simpa using (List.append_inj_right' same rfl))
  · exact visible ⟨above, among, above_dir⟩

end Writing

/-! ## What is kept -/

/-- Settings that were accepted are accepted afterwards, with no other field changed than the
document, and a settings file that was not accepted has the content that it had. -/
def SettingsKept (dir : String) (fs after : FileSystem) : Prop :=
  (∀ s, ((Settings.load dir).run fs).1 = .ok (some s) → ∃ document,
    ((Settings.load dir).run after).1 = .ok (some { s with lastDocument := document })) ∧
  ((∀ s, ((Settings.load dir).run fs).1 ≠ .ok (some s)) →
    after.read (Places.settingsPath dir) = fs.read (Places.settingsPath dir))

/-- Something can be written to a file at the path. -/
def CanWrite (fs : FileSystem) (path : String) : Prop :=
  ∃ data after, fs.write path data = .ok after

section Kept

variable {dir path name : String} {loc : Location} {fs between after : FileSystem}
  {data : ByteArray}

/-- A file can be written where there is no directory, if the system takes the path. -/
theorem canWrite_iff (leads : fs.Leads path loc name) :
    CanWrite fs path ↔ Fits path name ∧ fs.node? (loc ++ [name]) ≠ some .directory := by
  constructor
  · rintro ⟨data, after, wrote⟩
    obtain ⟨fits, free, -⟩ := leads.write_eq_ok_iff.mp wrote
    exact ⟨fits, free⟩
  · rintro ⟨fits, free⟩
    exact ⟨.empty, _, leads.write_eq_ok_iff.mpr ⟨fits, free, rfl⟩⟩

/-- Where something can be written, anything can. -/
theorem CanWrite.exists_write (can : CanWrite fs path) (leads : fs.Leads path loc name)
    (data : ByteArray) : ∃ written, fs.write path data = .ok written := by
  obtain ⟨fits, free⟩ := (canWrite_iff leads).mp can
  exact ⟨_, leads.write_eq_ok_iff.mpr ⟨fits, free, rfl⟩⟩

/-- The name that new settings are written under. -/
theorem leads_newSettings (opens : fs.Opens dir loc) :
    fs.Leads (Path.sibling (Places.settingsPath dir) ".tmp") loc "settings.json.tmp" :=
  (Settings.leads_settingsPath opens).sibling (by decide) (Path.ordinary_of_length (by decide))

/-- New settings can be written after the document if they could be before it. -/
theorem BesideSettings.canWrite_iff (beside : BesideSettings dir loc fs between)
    (opens : fs.Opens dir loc) :
    CanWrite between (Path.sibling (Places.settingsPath dir) ".tmp") ↔
      CanWrite fs (Path.sibling (Places.settingsPath dir) ".tmp") := by
  rw [CommandLine.canWrite_iff (leads_newSettings beside.opens), beside.new,
    ← CommandLine.canWrite_iff (leads_newSettings opens)]

/-- The settings that are written for a document: those that a file's bytes denote, or else the
defaults. -/
def remembered (data : ByteArray) (path : String) : Settings :=
  { (Settings.acceptBytes data).toOption.getD Settings.initial with lastDocument := some path }

/-- The settings that are written are accepted when they are read again. -/
theorem acceptBytes_remembered (data : ByteArray) (path : String) :
    Settings.acceptBytes (remembered data path).toJson.pretty.toUTF8 = .ok (remembered data path) :=
  Settings.acceptBytes_toJson (Settings.version_loadOrInitial data)

/-- To remember a document is to save these settings. -/
theorem run_rememberDocument (held : fs.read (Places.settingsPath dir) = .ok data) (path : String)
    (between : FileSystem) :
    ((rememberDocument dir ((Settings.loadOrInitial dir).run fs).1 path).run between).2
      = ((Settings.save dir (remembered data path)).run between).2 := by
  simp only [rememberDocument, FileProgram.run_bind, FileProgram.run_pure,
    Settings.run_loadOrInitial held, remembered]

/-- Settings are kept if their file has the content that it had. -/
theorem settingsKept_of_read_eq (held : fs.read (Places.settingsPath dir) = .ok data)
    (same : after.read (Places.settingsPath dir) = .ok data) : SettingsKept dir fs after := by
  rw [SettingsKept, Settings.run_load held, Settings.run_load same, held, same]
  exact ⟨fun s loaded => ⟨s.lastDocument, loaded⟩, fun _ => rfl⟩

/-- Once a document is remembered in the settings, they are kept if they were accepted before, and
no others are. -/
theorem settingsKept_iff_of_remembered (held : fs.read (Places.settingsPath dir) = .ok data)
    (written : after.read (Places.settingsPath dir)
      = .ok (remembered data path).toJson.pretty.toUTF8) :
    SettingsKept dir fs after ↔ ∃ s, ((Settings.load dir).run fs).1 = .ok (some s) := by
  rw [SettingsKept, Settings.run_load held, Settings.run_load written, held, written,
    acceptBytes_remembered]
  cases accepted : Settings.acceptBytes data with
  | ok former =>
    refine iff_of_true ⟨?_, fun none => absurd rfl (none former)⟩ ⟨former, rfl⟩
    rintro _ ⟨⟩
    exact ⟨some path, by rw [remembered, accepted]; rfl⟩
  | error e =>
    -- What is written is accepted, so it is not what was there.
    refine iff_of_false (fun kept => ?_) (by rintro ⟨s, ⟨⟩⟩)
    have same : (remembered data path).toJson.pretty.toUTF8 = data :=
      Except.ok.inj (kept.2 fun s => by rintro ⟨⟩)
    have written := acceptBytes_remembered data path
    rw [same, accepted] at written
    cases written

/-- A document is remembered in the settings as they were loaded, and that keeps them only if they
were accepted, or if nothing can be written. -/
theorem settingsKept_rememberDocument_iff (held : fs.read (Places.settingsPath dir) = .ok data)
    (opens : fs.Opens dir loc) (fits : Fits (Places.settingsPath dir) "settings.json")
    (node : fs.node? (loc ++ ["settings.json"]) = some (.file data))
    (beside : BesideSettings dir loc fs between) (path : String) :
    SettingsKept dir fs
        ((rememberDocument dir ((Settings.loadOrInitial dir).run fs).1 path).run between).2 ↔
      (∃ s, ((Settings.load dir).run fs).1 = .ok (some s)) ∨
        ¬ CanWrite fs (Path.sibling (Places.settingsPath dir) ".tmp") := by
  have node' := beside.file.trans node
  rw [run_rememberDocument held, ← beside.canWrite_iff opens]
  -- The new file is written first, and if that fails, nothing is moved.
  by_cases can : CanWrite between (Path.sibling (Places.settingsPath dir) ".tmp")
  · obtain ⟨written, wrote⟩ := can.exists_write (leads_newSettings beside.opens)
      (remembered data path).toJson.pretty.toUTF8
    obtain ⟨after, saved⟩ := Settings.exists_run_save beside.opens fits node' wrote
    rw [saved, settingsKept_iff_of_remembered held (Settings.read_of_save saved)]
    simp [can]
  · -- Nothing can be written, and nothing is changed.
    have still : between.read (Places.settingsPath dir) = .ok data :=
      (Settings.leads_settingsPath beside.opens).read_eq_ok fits node'
    refine iff_of_true ?_ (.inr can)
    cases wrote : between.write (Path.sibling (Places.settingsPath dir) ".tmp")
        (remembered data path).toJson.pretty.toUTF8 with
    | ok written => exact absurd ⟨_, _, wrote⟩ can
    | error e =>
      rw [Settings.run_save_of_error beside.opens fits wrote]
      exact settingsKept_of_read_eq held still

end Kept

/-! ## Opening and saving -/

section Requests

variable {dir file name : String} {settings : Settings} {fs : FileSystem}

/-- Reading a document changes nothing. -/
theorem run_readNamed (file : String) (fs : FileSystem) : ((readNamed file).run fs).2 = fs := by
  simp only [readNamed, FileProgram.run]
  cases fs.read file with
  | error e => rfl
  | ok data =>
    simp only
    split <;> rfl

/-- Neither does reading the script. -/
theorem run_readStored (dir : String) (fs : FileSystem) : ((readStored dir).run fs).2 = fs := by
  have loaded : ((Document.load (Places.scriptPath dir)).run fs).2 = fs := by
    simp only [Document.load, FileProgram.run]
    cases fs.read (Places.scriptPath dir) with
    | error e => cases e <;> rfl
    | ok data =>
      simp only
      split <;> rfl
  simp only [readStored, FileProgram.run_bind]
  split <;> simp [loaded]

/-- What stores a document and goes well has stored it, and then remembered it. -/
theorem exists_run_of_stored {store : FileProgram (Except OsError Unit)} {path message : String}
    {next : Except OsError Unit → FileProgram Output}
    (went : ((store >>= next).run fs).1.code = 0)
    (failed : ∀ e, next (.error e) = return .fail e.toFailure.message)
    (stored : next (.ok ()) = do
      rememberDocument dir settings path
      return .success message) :
    ∃ between, store.run fs = (.ok (), between) ∧
      ((store >>= next).run fs).2 = ((rememberDocument dir settings path).run between).2 := by
  rw [FileProgram.run_bind] at went ⊢
  generalize store.run fs = answer at went ⊢
  obtain ⟨e | ⟨⟨⟩⟩, between⟩ := answer
  · rw [failed] at went
    cases went
  · refine ⟨between, rfl, ?_⟩
    rw [stored, FileProgram.run_bind, FileProgram.run_pure]

/-- A document that was opened was read and saved as the script, and then remembered. -/
theorem exists_read_of_openDocument (went : ((openDocument dir settings file).run fs).1.code = 0) :
    ∃ text, ((readNamed file).run fs).1 = .ok text ∧
      ∃ between, (Document.save (Places.scriptPath dir) text).run fs = (.ok (), between) ∧
        ((openDocument dir settings file).run fs).2
          = ((rememberDocument dir settings file).run between).2 := by
  rw [openDocument, FileProgram.run_bind, run_readNamed] at went ⊢
  cases answer : ((readNamed file).run fs).1 with
  | error message =>
    rw [answer] at went
    cases went
  | ok text =>
    simp only [answer] at went ⊢
    exact ⟨text, rfl, exists_run_of_stored went (fun e => rfl) rfl⟩

/-- A document that was saved is the script as it was read, was written to its path, and then
remembered. -/
theorem exists_read_of_saveDocument {s : Surroundings} {place : Option String}
    (went : ((saveDocument s dir settings name place).run fs).1.code = 0) :
    ∃ text, ((readStored dir).run fs).1 = .ok text ∧
      ∃ between, (atomicWrite (documentPath place name s.now) text.toUTF8).run fs
          = (.ok (), between) ∧
        ((saveDocument s dir settings name place).run fs).2
          = ((rememberDocument dir settings (documentPath place name s.now)).run between).2 := by
  rw [saveDocument, FileProgram.run_bind, run_readStored] at went ⊢
  cases answer : ((readStored dir).run fs).1 with
  | error message =>
    rw [answer] at went
    cases went
  | ok text =>
    simp only [answer] at went ⊢
    exact ⟨text, rfl, exists_run_of_stored went (fun e => rfl) rfl⟩

end Requests

/-- The directory of the settings in a run. -/
def configDirOf (s : Surroundings) (invocation : Invocation) : String :=
  invocation.configDir.getD (Places.appConfigDir s.environment)

/-- Whether a request is to open or to save a document. -/
def Request.isDocument : Request → Bool
  | .openDocument _ | .saveDocument _ _ => true
  | .run .. | .check _ | .commands _ | .settings _ => false

/-- A document is opened or saved, and that goes well. Then the settings are kept, all but the
document that they remember, exactly if they were accepted before or nothing can be written beside
their file. In particular a settings file that was not accepted is lost whenever another can be
written in its place. A directory where the document is to be saved would be moved away with all
that is in it, so it is left out here. -/
theorem settings_kept_iff {s : Surroundings} {invocation : Invocation} {fs : FileSystem}
    {data : ByteArray} (rooted : fs.Rooted)
    (held : fs.read (Places.settingsPath (configDirOf s invocation)) = .ok data)
    (asked : invocation.request.isDocument = true)
    (clear : ∀ name place, invocation.request = .saveDocument name place →
      fs.find (documentPath place name s.now) ≠ .ok .directory)
    (went : ((execute s invocation).run fs).1.code = 0) :
    SettingsKept (configDirOf s invocation) fs ((execute s invocation).run fs).2 ↔
      (∃ settings, ((Settings.load (configDirOf s invocation)).run fs).1 = .ok (some settings)) ∨
        ¬ CanWrite fs (Path.sibling (Places.settingsPath (configDirOf s invocation)) ".tmp") := by
  simp only [execute, FileProgram.run_bind] at went ⊢
  unfold configDirOf at held ⊢
  generalize invocation.configDir.getD (Places.appConfigDir s.environment) = dir at held went ⊢
  obtain ⟨loc, opens, fits, node⟩ := Settings.exists_opens_of_read held
  have kept {between : FileSystem} (path : String) (beside : BesideSettings dir loc fs between) :=
    settingsKept_rememberDocument_iff held opens fits node beside path
  have files : ((Settings.loadOrInitial dir).run fs).2 = fs := by
    rw [Settings.run_loadOrInitial held]
  simp only [files] at went ⊢
  -- Both requests store a document first and remember it then. They differ in where it is stored.
  cases request : invocation.request with
  | openDocument file =>
    rw [request] at went
    obtain ⟨text, -, between, saved, after⟩ := exists_read_of_openDocument went
    rw [after]
    exact kept file (besideSettings_of_save opens saved)
  | saveDocument name place =>
    rw [request] at went
    obtain ⟨text, -, between, written, after⟩ := exists_read_of_saveDocument went
    rw [after]
    exact kept _ (besideSettings_of_document rooted opens (clear name place request) written)
  | _ =>
    rw [request] at asked
    cases asked

/-- Nothing around a run but its files. -/
def noSurroundings : Surroundings := ⟨⟨none, none, none⟩, "/", .empty, 0⟩

/-- Settings that were accepted outlive a document that is saved in another directory. -/
theorem acceptedSettings_kept :
    let stored := "\x7b\"version\": 1, \"canvas_width\": 320\x7d".toUTF8
    let fs : FileSystem := ⟨[(["cfg"], .directory), (["docs"], .directory),
      (["cfg", "settings.json"], .file stored)], []⟩
    let saving : Invocation := ⟨some "cfg", false, .saveDocument "house" (some "docs")⟩
    ((execute noSurroundings saving).run fs).1.code = 0 ∧
      SettingsKept (configDirOf noSurroundings saving) fs
        ((execute noSurroundings saving).run fs).2 := by
  intro stored fs saving
  have rooted : fs.Rooted := by
    refine .of_nodes fun entry among => ?_
    simp only [fs, List.mem_cons, List.not_mem_nil, or_false] at among
    rcases among with rfl | rfl | rfl
    · rfl
    · rfl
    · rfl
  have held : fs.read (Places.settingsPath (configDirOf noSurroundings saving)) = .ok stored := by
    decide +kernel
  have missing : (fs.find (documentPath (some "docs") "house" noSurroundings.now)).isOk
      = false := by decide +kernel
  have accepted : ((Settings.load (configDirOf noSurroundings saving)).run fs).1.toOption
      = some (some { Settings.initial with canvasWidth := 320 }) := by decide +kernel
  have went : ((execute noSurroundings saving).run fs).1.code = 0 := by decide +kernel
  refine ⟨went, (settings_kept_iff rooted held rfl ?_ went).mpr (.inl ?_)⟩
  · intro name place same found
    obtain ⟨rfl, rfl⟩ := Request.saveDocument.inj same
    rw [found] at missing
    cases missing
  · cases loaded : ((Settings.load (configDirOf noSurroundings saving)).run fs).1 with
    | error e =>
      rw [loaded] at accepted
      cases accepted
    | ok found =>
      rw [loaded] at accepted
      exact ⟨_, congrArg _ (Option.some.inj accepted)⟩

/-- Settings of a newer version are refused. When a document is then opened, which goes well, others
are written in their place. -/
theorem newerSettings_replaced :
    let stored := "\x7b\"version\": 99, \"canvas_width\": 320\x7d".toUTF8
    let fs : FileSystem := ⟨[(["cfg"], .directory), (["doc.thtm"], .file "h 1".toUTF8),
      (["cfg", "settings.json"], .file stored)], []⟩
    let ran := (program noSurroundings ["--config-dir", "cfg", "open", "doc.thtm"]).run fs
    ran.1.code = 0 ∧ ((Settings.load "cfg").run fs).1.toOption = none ∧
      ¬ SettingsKept "cfg" fs ran.2 := by
  intro stored fs ran
  have went : ran.1.code = 0 := by decide +kernel
  have refused : ((Settings.load "cfg").run fs).1.toOption = none := by decide +kernel
  have changed : ran.2.read (Places.settingsPath "cfg") ≠ fs.read (Places.settingsPath "cfg") := by
    decide +kernel
  refine ⟨went, refused, fun kept => changed (kept.2 fun s loaded => ?_)⟩
  rw [loaded] at refused
  cases refused

end Linework.CommandLine
