import Linework.Proofs.Storage.Directories
import Linework.Proofs.Storage.SettingsText

/-!
# `Linework.Proofs.Storage.SettingsFile`: settings in a directory

The settings of a directory are kept in a file of it, and it is the bytes of this file that decide
whether they are accepted (`run_load`). Saving settings puts their text in the file
(`read_of_save`). Where there is a settings file already, its directory is there too, so saving is
the replacement of a file and nothing more: it succeeds if the new file can be written beside the
former one (`exists_run_save`), and changes nothing if not (`run_save_of_error`).
-/

set_option autoImplicit false

namespace Linework

open FileSystem Document

namespace Settings

/-! ## Loading -/

/-- The settings that a file's bytes denote, if they can be used. -/
def acceptBytes (data : ByteArray) : Except LoadError Settings :=
  match String.fromUTF8? data with
  | some text => accept text
  | none => .error (.io (.io notTextMessage))

variable {dir : String} {fs : FileSystem} {data : ByteArray}

/-- A settings file that can be read is accepted for its bytes or not at all. -/
theorem run_load (held : fs.read (Places.settingsPath dir) = .ok data) :
    (load dir).run fs = ((acceptBytes data).map some, fs) := by
  have found : ((fs.find (Places.settingsPath dir)).map Node.isDirectory).isOk = true := by
    obtain ⟨loc, located, node⟩ := read_eq_ok_iff.mp held
    simp [find, located, node, Except.map, Except.isOk, Except.toBool]
  simp only [load, FileProgram.run_bind, FileProgram.pathExists, FileProgram.run, found, if_true,
    readText, held, acceptBytes]
  cases String.fromUTF8? data with
  | none => rfl
  | some text => rfl

/-- A settings file that is not accepted is passed over for the initial settings. -/
theorem run_loadOrInitial (held : fs.read (Places.settingsPath dir) = .ok data) :
    (loadOrInitial dir).run fs = ((acceptBytes data).toOption.getD initial, fs) := by
  simp only [loadOrInitial, FileProgram.run_bind, run_load held]
  cases acceptBytes data with
  | error e => rfl
  | ok s => rfl

/-- Whatever settings the program has, they are not of a newer version. -/
theorem version_loadOrInitial (data : ByteArray) :
    ¬ supportedVersion < ((acceptBytes data).toOption.getD initial).version := by
  cases accepted : acceptBytes data with
  | error e => exact (by decide : ¬ supportedVersion < supportedVersion)
  | ok s =>
    unfold acceptBytes at accepted
    split at accepted
    · exact (accept_eq_ok_iff.mp accepted).2
    · cases accepted

/-- Settings that are written are accepted, if they are not of a newer version. -/
theorem acceptBytes_toJson {s : Settings} (known : ¬ supportedVersion < s.version) :
    acceptBytes s.toJson.pretty.toUTF8 = .ok s := by
  rw [acceptBytes, fromUTF8?_toUTF8]
  simp only [accept_toJson, if_neg known]

/-! ## Saving -/

/-- Settings that are saved are in the settings file. -/
theorem read_of_save {s : Settings} {after : FileSystem}
    (h : (save dir s).run fs = (.ok (), after)) :
    after.read (Places.settingsPath dir) = .ok s.toJson.pretty.toUTF8 := by
  obtain ⟨middle, -, written⟩ := run_andThen_eq_ok_iff.mp h
  exact read_of_atomicWrite written

/-- The name of the settings file. -/
theorem leads_settingsPath {loc : Location} (opens : fs.Opens dir loc) :
    fs.Leads (Places.settingsPath dir) loc "settings.json" :=
  opens.leads (by decide) (Path.ordinary_of_length (by decide))

/-- A settings file that can be read is in the directory that its path is joined to. -/
theorem exists_opens_of_read (held : fs.read (Places.settingsPath dir) = .ok data) :
    ∃ loc, fs.Opens dir loc ∧ Fits (Places.settingsPath dir) "settings.json" ∧
      fs.node? (loc ++ ["settings.json"]) = some (.file data) := by
  have noSlash : '/' ∉ "settings.json".toList := by decide
  rcases exists_leads_of_read held with ⟨loc, name, leads, fits, node⟩ | ⟨above, loc, up, -, -⟩
  · obtain ⟨opens, rfl⟩ := opens_of_leads leads noSlash
    exact ⟨loc, opens, fits, node⟩
  · -- The path does not end by going up.
    have last := List.append_inj_right' ((Path.names_join noSlash).symm.trans up) rfl
    exact absurd last (by decide)

section Replacing

variable {loc : Location} (opens : fs.Opens dir loc)
  (fits : Fits (Places.settingsPath dir) "settings.json")
include opens fits

/-- The directory of a settings file need not be made. -/
theorem run_save_eq (s : Settings) :
    (save dir s).run fs
      = (atomicWrite (Places.settingsPath dir) s.toJson.pretty.toUTF8).run fs := by
  obtain ⟨same, made⟩ := run_createDirectories opens.walk_names opens.directory
  -- The path of the directory is shorter than that of the file, so the system takes it as well.
  have made := made (admissible_of_join (by decide) fits.admissible)
  have made : (createDirectories dir).run fs = (.ok (), fs) := Prod.ext made same
  rw [save, andThen, FileProgram.run_bind, made]

/-- Settings are saved whenever their new file can be written beside the former one. -/
theorem exists_run_save {s : Settings} {old : ByteArray} {written : FileSystem}
    (node : fs.node? (loc ++ ["settings.json"]) = some (.file old))
    (wrote : fs.write (Path.sibling (Places.settingsPath dir) ".tmp") s.toJson.pretty.toUTF8
      = .ok written) :
    ∃ after, (save dir s).run fs = (.ok (), after) := by
  rw [run_save_eq opens fits s]
  exact exists_run_atomicWrite_of_file (leads_settingsPath opens) fits node wrote

/-- If it cannot be written, nothing is changed. -/
theorem run_save_of_error {s : Settings} {e : OsError}
    (h : fs.write (Path.sibling (Places.settingsPath dir) ".tmp") s.toJson.pretty.toUTF8
      = .error e) :
    (save dir s).run fs = (.error e, fs) := by
  rw [run_save_eq opens fits s]
  exact run_atomicWrite_of_error h

end Replacing

end Settings

end Linework
