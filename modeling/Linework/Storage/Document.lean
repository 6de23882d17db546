import Linework.Failure
import Linework.Storage.Calendar
import Linework.Storage.FileProgram

/-!
# `Linework.Storage.Document`: keeping texts on disk under their names

A document's file carries the document's name and an extension. A document
without a name gets the time it was saved at, so that unnamed files sort by age.

A file is never written in place. `atomicWrite` writes a new file beside it, keeps
the former one as a backup, and gives the new file the name. A script between two
sessions is a file that holds the text and nothing else; a script that was never
saved is not an error.
-/

set_option autoImplicit false

namespace Linework

/-! ## Names -/

/-- The extension of saved documents. -/
def documentExtension : String := "thtm"

/-- The file name of a document: the name if it carries the extension already, the
name with the extension otherwise, and the time when there is no name. -/
def saveFileName (name extension : String) (now : Instant) : String :=
  let suffix := "." ++ extension
  if name = "" then (CivilTime.ofInstant now).stamp ++ suffix
  else if suffix.toList.isSuffixOf name.toList then name
  else name ++ suffix

/-- Every file name ends in the extension. -/
theorem isSuffix_saveFileName (name extension : String) (now : Instant) :
    ("." ++ extension).toList <:+ (saveFileName name extension now).toList := by
  unfold saveFileName
  dsimp only
  split
  · exact ⟨_, String.toList_append.symm⟩
  split
  · exact List.isSuffixOf_iff_suffix.mp ‹_›
  · exact ⟨_, String.toList_append.symm⟩

/-- The document name of a file: its name without the document extension. -/
def documentName (fileName : String) : String :=
  (Text.beforeTail? ("." ++ documentExtension) fileName).getD fileName

/-- A script with a line on top that draws the picture `name` at the origin. -/
def prependReference (script name : String) : String :=
  "reference " ++ name ++ " 0 0\n" ++ script

/-! ## Files -/

/-- The failure of a file operation. -/
def OsError.toFailure (e : OsError) : Failure := .io e.message

/-- What is said of bytes that are no text. -/
def notTextMessage : String := "stream did not contain valid UTF-8"

namespace Document

/-- The first file system fault of two steps, or none. -/
def andThen (step : FileProgram (Except OsError Unit))
    (next : FileProgram (Except OsError Unit)) : FileProgram (Except OsError Unit) := do
  match ← step with
  | .ok () => next
  | .error e => return .error e

/-- Writes a file, as one operation. -/
def writeFile (path : String) (data : ByteArray) : FileProgram (Except OsError Unit) :=
  .write path data .done

/-- Renames a path, as one operation. -/
def renamePath (source target : String) : FileProgram (Except OsError Unit) :=
  .rename source target .done

/-- Keeps what is at a path under another name. It is no failure if that cannot be
done. -/
def backUp (path backup : String) : FileProgram Unit := do
  if ← FileProgram.pathExists path then
    -- The answer is not looked at.
    let _ ← renamePath path backup

/-- Replaces the file at a path by one with the given bytes. -/
def atomicWrite (path : String) (data : ByteArray) : FileProgram (Except OsError Unit) :=
  andThen (writeFile (Path.sibling path ".tmp") data) do
    backUp path (Path.sibling path ".bak")
    renamePath (Path.sibling path ".tmp") path

/-- Makes a directory, as one operation. A directory that is there already will
do. -/
def ensureDirectory (path : String) : FileProgram (Except OsError Unit) :=
  .makeDirectory path fun
    | .ok () => .done (.ok ())
    | .error e => do
      if ← FileProgram.isDirectory path then return .ok () else return .error e

/-- Makes a directory and, given enough steps, those above it that are missing. -/
def makeDirectories : Nat → String → FileProgram (Except OsError Unit)
  | 0, _ => return .ok ()
  | steps + 1, path =>
    if path = "" then return .ok ()
    else do
      match ← ensureDirectory path with
      | .ok () => return .ok ()
      | .error .notFound =>
        match Path.parent? path with
        | none => return .error .notFound
        -- The directory is tried first and those above it only if they are missing.
        | some above => andThen (makeDirectories steps above) (ensureDirectory path)
      | .error e => return .error e

/-- Makes a directory and those above it that are missing. A path has fewer names
than characters. -/
def createDirectories (path : String) : FileProgram (Except OsError Unit) :=
  makeDirectories (path.length + 1) path

/-- The text of a file. -/
def readText (path : String) : FileProgram (Except Failure String) :=
  .read path fun
    | .error e => .done (.error e.toFailure)
    | .ok data =>
      match String.fromUTF8? data with
      | some text => .done (.ok text)
      | none => .done (.error (.io notTextMessage))

/-- The script kept at a path, if one was saved. -/
def load (path : String) : FileProgram (Except Failure (Option String)) :=
  .read path fun
    -- Nothing saved is no failure, even if the directories are missing too.
    | .error .notFound => .done (.ok none)
    | .error e => .done (.error e.toFailure)
    | .ok data =>
      match String.fromUTF8? data with
      | some text => .done (.ok (some text))
      | none => .done (.error (.io notTextMessage))

/-- Saves a script at a path, in a directory that is made if need be. -/
def save (path script : String) : FileProgram (Except OsError Unit) :=
  match Path.parent? path with
  | some above => andThen (createDirectories above) (atomicWrite path script.toUTF8)
  | none => atomicWrite path script.toUTF8

end Document

end Linework
