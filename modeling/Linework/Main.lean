import Linework.CommandLine.Execute
import Std.Time.DateTime.Timestamp

/-!
# `Linework.Main`: the program itself

What `CommandLine.program` decides is carried out here on real files, with the
real arguments, environment, standard input and clock. Nothing is decided here.
-/

set_option autoImplicit false

namespace Linework

namespace OsError

/-- The error that the system gives a number to. Some operations report the number
with its sign changed, which wraps. -/
def ofNumber? (number : UInt32) : Option OsError :=
  match min number (-number) with
  | 2 => some notFound
  | 16 => some busy
  | 17 => some «exists»
  | 20 => some notDirectory
  | 21 => some isDirectory
  | 22 => some invalid
  | 36 => some nameTooLong
  | 39 => some notEmpty
  | _ => none

/-- The error that a failed operation stands for. -/
def ofFault? : IO.Error → Option OsError
  | .alreadyExists _ number _ => ofNumber? number
  | .resourceBusy number _ => ofNumber? number
  | .unsatisfiedConstraints number _ => ofNumber? number
  | .noFileOrDirectory _ number _ => ofNumber? number
  | .invalidArgument _ number _ => ofNumber? number
  | .inappropriateType _ number _ => ofNumber? number
  | .noSuchThing _ number _ => ofNumber? number
  | .otherError number _ => ofNumber? number
  | _ => none

end OsError

namespace FileProgram

variable {α : Type}

/-- Carries an operation out on real files. A fault that no `OsError` stands for is
passed on. -/
def attempt (paths : List String) (operation : IO α) : IO (Except OsError α) := do
  if paths.any fun path => path.contains '\x00' then return .error .nulInPath
  try
    return .ok (← operation)
  catch fault =>
    match OsError.ofFault? fault with
    | some e => return .error e
    | none => throw fault

/-- Asks whether there is a directory or a file at a path: only a file can be
read. -/
def isDirectoryAt (path : String) : IO (Except OsError Bool) := do
  match ← attempt [path] (IO.FS.readBinFile path) with
  | .ok _ => return .ok false
  | .error .isDirectory => return .ok true
  | .error e => return .error e

/-- Carries a program out on real files. -/
def perform : FileProgram α → IO α
  | done value => return value
  | inspect path next => do (next (← isDirectoryAt path)).perform
  | read path next => do (next (← attempt [path] (IO.FS.readBinFile path))).perform
  | write path data next => do
    (next (← attempt [path] (IO.FS.writeBinFile path data))).perform
  | makeDirectory path next => do
    (next (← attempt [path] (IO.FS.createDir path))).perform
  | rename source target next => do
    (next (← attempt [source, target] (IO.FS.rename source target))).perform

end FileProgram

namespace CommandLine

/-- Reads what is left of a stream. -/
partial def readToEnd (stream : IO.FS.Stream) (data : ByteArray) : IO ByteArray := do
  let more ← stream.read 65536
  if more.isEmpty then return data else readToEnd stream (data ++ more)

/-- The surroundings of this run. The standard input is read only if an argument
names it. -/
def surroundings (arguments : List String) : IO Surroundings := do
  let stdin ←
    if stdinName ∈ arguments then readToEnd (← IO.getStdin) .empty else pure .empty
  return {
    environment :=
      ⟨← IO.getEnv "XDG_CONFIG_HOME", ← IO.getEnv "HOME", ← IO.getEnv "USERPROFILE"⟩
    workingDir := (← IO.currentDir).toString
    stdin := stdin
    now := (← Std.Time.Timestamp.now).toSecondsSinceUnixEpoch.val }

end CommandLine

end Linework

open Linework CommandLine in
/-- Runs the program on its arguments. -/
def main (arguments : List String) : IO UInt32 := do
  let output ← (program (← surroundings arguments) arguments).perform
  IO.print output.stdout
  IO.eprint output.stderr
  return UInt32.ofNat output.code
