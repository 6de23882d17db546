import Linework.Command.Builtin
import Linework.Command.Catalog
import Linework.CommandLine.Request
import Linework.Script
import Linework.Reference.Loader
import Linework.Session.Basic
import Linework.Storage.Settings

/-!
# `Linework.CommandLine.Execute`: carrying a request out

A run of the program is a file program that ends in an exit code and what is
printed. Surroundings that are not files (the standard input, the clock, the
environment) are given at the start. A fault that leaves nothing to go on with is
printed after `Error:` and ends the run with code one; so does a check of a script
that halts, after its hints.
-/

set_option autoImplicit false

namespace Linework.CommandLine

/-- What a run finds around it, files aside. -/
structure Surroundings where
  environment : Environment
  /-- The path of the directory where relative paths begin. -/
  workingDir : String
  stdin : ByteArray
  /-- Seconds since the start of 1970. -/
  now : Int

/-- What a run leaves behind, files aside. -/
structure Output where
  code : Nat
  stdout : String
  stderr : String
  deriving Repr

namespace Output

/-- A run that went well. -/
def success (stdout : String) : Output := ⟨0, stdout, ""⟩

/-- A run that cannot go on. -/
def fail (message : String) : Output := ⟨1, "", "Error: " ++ message ++ "\n"⟩

end Output

/-- What stands for the standard input among file names. -/
def stdinName : String := "-"

/-- A script, and the directory in which its pictures are looked for. -/
structure Script where
  text : String
  base : String

/-- The directory of a file's pictures: the file's own, or the working directory
if the name says nothing of one. -/
def baseOf (s : Surroundings) (file : String) : String :=
  match Path.parent? file with
  | some above => if above = "" then s.workingDir else above
  | none => s.workingDir

/-- Text given on the standard input. -/
def readStdin (s : Surroundings) : Except String String :=
  match String.fromUTF8? s.stdin with
  | some text => .ok text
  | none => .error ("reading stdin: " ++ notTextMessage)

/-- Text of a file that the user named. -/
def readNamed (file : String) : FileProgram (Except String String) :=
  .read file fun
    | .error e => .done (.error (file ++ ": " ++ e.message))
    | .ok data =>
      match String.fromUTF8? data with
      | some text => .done (.ok text)
      | none => .done (.error (file ++ ": " ++ notTextMessage))

/-- The stored script; nothing stored is an empty script. -/
def readStored (configDir : String) : FileProgram (Except String String) := do
  match ← Document.load (Places.scriptPath configDir) with
  | .ok text => return .ok (text.getD "")
  | .error failure => return .error failure.message

/-- The script that a request names. -/
def readScript (s : Surroundings) (configDir : String) :
    Option String → FileProgram (Except String Script)
  | none => do
    return (← readStored configDir).map fun text => ⟨text, s.workingDir⟩
  | some file =>
    if file = stdinName then return (readStdin s).map fun text => ⟨text, s.workingDir⟩
    else do
      return (← readNamed file).map fun text => ⟨text, baseOf s file⟩

/-- Whether the program can introduce itself by a text over the network. Control
characters other than the tab cannot be sent. -/
def isSendable (agent : String) : Bool :=
  agent.toList.all fun c => c = '\t' || (0x20 ≤ c.toNat && c.toNat ≠ 0x7F)

/-- The session that a script is run in. It saves nothing. -/
def openSession (settings : Settings) : Except Failure Session :=
  if isSendable settings.userAgent then
    .ok (Session.start builtinRegistry (settings.canvasWidth, settings.canvasHeight) none
      (FileSystem.withWorkingDirectory ""))
  else .error (.httpClient "builder error")

/-- The viewport of a session with what the user wants changed. -/
def viewOf (view : View) (current : Viewport) : Viewport :=
  ⟨view.panX.getD current.panX, view.panY.getD current.panY, view.zoom.getD current.zoom⟩

/-- Requests the pictures that the user named as `NAME=PATH`. -/
def loadPictures (session : Session) : List String → Except String Session
  | [] => .ok session
  | entry :: rest =>
    match Text.cutAtFirst? '=' entry with
    | some (name, path) => loadPictures (session.loadReference name path) rest
    | none => .error ("--reference expects NAME=PATH, got '" ++ entry ++ "'")

/-- The drawing operations of the latest pass, one to a line. -/
def opsText (session : Session) : String :=
  String.join (session.recording.currentFrame.map fun op => op.toJson.compact ++ "\n")

/-- What a run prints of a report. -/
def reportText (script : String) (report : Report) (session : Session) (ops json : Bool) :
    String :=
  if json then
    let fields := report.sortedFields ++
      (if ops then
        [("ops", .array (session.recording.currentFrame.map DrawOp.toSortedJson))]
       else [])
    (Json.sortedRecord fields).pretty ++ "\n"
  else annotate script report.hints ++ (if ops then "\n" ++ opsText session else "")

/-- What the latest pass of a session has to tell. -/
def latestText (script : String) (session : Session) (ops json : Bool) : String :=
  match session.lastReport with
  | some report => reportText script report session ops json
  | none => ""

/-- What the addresses of a table brought. -/
def resolverOf (table : List (String × Except Failure Picture)) : Resolver := fun url =>
  (table.lookup url).getD (.error (Loader.webFailure url))

/-- Runs a script, waits for its pictures, and prints the hints. -/
def runScript (s : Surroundings) (configDir : String) (settings : Settings) (json : Bool)
    (file : Option String) (view : View) (pictures : List String) (ops : Bool) :
    FileProgram Output := do
  match ← readScript s configDir file with
  | .error message => return .fail message
  | .ok script =>
    match openSession settings with
    | .error failure => return .fail failure.message
    | .ok session =>
      let viewed := session.setViewport (viewOf view session.viewport)
      match loadPictures viewed pictures with
      | .error message => return .fail message
      | .ok loading =>
        let running := loading.setScript script.text
        -- All that will be fetched is in flight by now, as running the script again starts
        -- nothing new.
        let table ← Loader.loadAll script.base (running.cache.inFlight.map Fetch.url)
        let settled := (running.settle (resolverOf table)).2
        return .success (latestText script.text settled ops json)

/-- Runs a script once and tells by the exit code whether it halts. -/
def checkScript (s : Surroundings) (configDir : String) (settings : Settings) (json : Bool)
    (file : Option String) : FileProgram Output := do
  match ← readScript s configDir file with
  | .error message => return .fail message
  | .ok script =>
    match openSession settings with
    | .error failure => return .fail failure.message
    | .ok session =>
      let ran := session.setScript script.text
      let halted := ran.lastReport.any fun report => report.verdict.isHalted
      return ⟨if halted then 1 else 0, latestText script.text ran false json, ""⟩

/-- Describes the commands. As JSON they are always all described. -/
def describeCommands (json : Bool) (topic : Option String) : Output :=
  .success (if json then builtinRegistry.catalog.pretty ++ "\n"
    else builtinRegistry.helpText topic ++ "\n")

/-- Remembers the document opened or saved last. It is no failure if that cannot be
done. -/
def rememberDocument (configDir : String) (settings : Settings) (path : String) :
    FileProgram Unit := do
  let _ ← Settings.save configDir { settings with lastDocument := some path }

/-- Makes a document the stored script. -/
def openDocument (configDir : String) (settings : Settings) (file : String) :
    FileProgram Output := do
  match ← readNamed file with
  | .error message => return .fail message
  | .ok text =>
    match ← Document.save (Places.scriptPath configDir) text with
    | .error e => return .fail e.toFailure.message
    | .ok () =>
      rememberDocument configDir settings file
      return .success ("Opened " ++ documentName ((Path.fileName? file).getD "") ++ "\n")

/-- The path that a document is saved at. -/
def documentPath (dir : Option String) (name : String) (now : Int) : String :=
  Path.join (dir.getD ".") (saveFileName name documentExtension (.ofUnixSeconds now))

/-- Saves the stored script as a document. -/
def saveDocument (s : Surroundings) (configDir : String) (settings : Settings)
    (name : String) (dir : Option String) : FileProgram Output := do
  match ← readStored configDir with
  | .error message => return .fail message
  | .ok text =>
    let path := documentPath dir name s.now
    match ← Document.atomicWrite path text.toUTF8 with
    | .error e => return .fail e.toFailure.message
    | .ok () =>
      rememberDocument configDir settings path
      return .success ("Saved " ++ path ++ "\n")

/-- Prints the settings or their schema. -/
def printSettings (settings : Settings) (schema : Bool) : Output :=
  let value := if schema then Settings.schema else .sortedRecord settings.fields
  .success (value.pretty ++ "\n")

/-- Carries an invocation out. -/
def execute (s : Surroundings) (invocation : Invocation) : FileProgram Output := do
  let configDir := invocation.configDir.getD (Places.appConfigDir s.environment)
  -- The settings are read first, whatever is asked for.
  let settings ← Settings.loadOrInitial configDir
  match invocation.request with
  | .run file view pictures ops =>
    runScript s configDir settings invocation.json file view pictures ops
  | .check file => checkScript s configDir settings invocation.json file
  | .commands topic => return describeCommands invocation.json topic
  | .openDocument file => openDocument configDir settings file
  | .saveDocument name dir => saveDocument s configDir settings name dir
  | .settings schema => return printSettings settings schema

/-- The name and version of the program. -/
def versionText : String := "sketchline " ++ Settings.release ++ "\n"

/-- How to call the program. -/
def usageText : String :=
  "Usage: sketchline [--config-dir DIR] [--json] COMMAND\n\n" ++
  "Commands:\n" ++
  "  run [FILE] [--pan-x X] [--pan-y Y] [--zoom Z] [--reference NAME=PATH]... [--ops]\n" ++
  "      [--timeout SECONDS]\n" ++
  "  check [FILE]\n" ++
  "  commands [TOPIC]\n" ++
  "  open FILE\n" ++
  "  save [--name NAME] [--dir DIR]\n" ++
  "  settings [--schema]\n"

/-- Runs the program on its arguments. -/
def program (s : Surroundings) (arguments : List String) : FileProgram Output :=
  match readInvocation arguments with
  | .ok invocation => execute s invocation
  | .error .version => return .success versionText
  | .error .help => return .success usageText
  | .error .misuse => return ⟨2, "", usageText⟩

end Linework.CommandLine
