import Linework.Storage.FileSystem

/-!
# `Linework.Storage.FileProgram`: work on files, step by step

A file program is a sequence of file operations in which every step may depend on
the answers before it. It says what is to be done without doing it: `run` carries
it out on a `FileSystem`, `states` lists the file systems it passes through, and
an outer layer may carry it out on real files. A crash leaves one of the `states`.
-/

set_option autoImplicit false

namespace Linework

/-- A sequence of file operations that ends in a value. -/
inductive FileProgram (α : Type) where
  | done (value : α)
  /-- Asks whether there is a directory (`true`) or a file (`false`) at a path. -/
  | inspect (path : String) (next : Except OsError Bool → FileProgram α)
  | read (path : String) (next : Except OsError ByteArray → FileProgram α)
  | write (path : String) (data : ByteArray) (next : Except OsError Unit → FileProgram α)
  | makeDirectory (path : String) (next : Except OsError Unit → FileProgram α)
  | rename (source target : String) (next : Except OsError Unit → FileProgram α)

namespace FileProgram

variable {α β : Type}

/-- A program followed by one that depends on its value. -/
def bind : FileProgram α → (α → FileProgram β) → FileProgram β
  | done value, f => f value
  | inspect path next, f => inspect path fun a => (next a).bind f
  | read path next, f => read path fun a => (next a).bind f
  | write path data next, f => write path data fun a => (next a).bind f
  | makeDirectory path next, f => makeDirectory path fun a => (next a).bind f
  | rename source target next, f => rename source target fun a => (next a).bind f

instance : Monad FileProgram where
  pure := done
  bind := bind

/-- The answer of an operation that changes files, and the files after it. -/
def answer (fs : FileSystem) :
    Except OsError FileSystem → Except OsError Unit × FileSystem
  | .ok after => (.ok (), after)
  | .error e => (.error e, fs)

/-- Carries a program out. -/
def run : FileProgram α → FileSystem → α × FileSystem
  | done value, fs => (value, fs)
  | inspect path next, fs => (next ((fs.find path).map Node.isDirectory)).run fs
  | read path next, fs => (next (fs.read path)).run fs
  | write path data next, fs =>
    let (a, fs) := answer fs (fs.write path data)
    (next a).run fs
  | makeDirectory path next, fs =>
    let (a, fs) := answer fs (fs.makeDirectory path)
    (next a).run fs
  | rename source target next, fs =>
    let (a, fs) := answer fs (fs.rename source target)
    (next a).run fs

/-- The file systems that a program passes through, from the first to the last. -/
def states : FileProgram α → FileSystem → List FileSystem
  | done _, fs => [fs]
  | inspect path next, fs => fs :: (next ((fs.find path).map Node.isDirectory)).states fs
  | read path next, fs => fs :: (next (fs.read path)).states fs
  | write path data next, fs =>
    let (a, after) := answer fs (fs.write path data)
    fs :: (next a).states after
  | makeDirectory path next, fs =>
    let (a, after) := answer fs (fs.makeDirectory path)
    fs :: (next a).states after
  | rename source target next, fs =>
    let (a, after) := answer fs (fs.rename source target)
    fs :: (next a).states after

/-- Whether anything is at a path. -/
def pathExists (path : String) : FileProgram Bool :=
  inspect path fun a => done a.isOk

/-- Whether a directory is at a path. -/
def isDirectory (path : String) : FileProgram Bool :=
  inspect path fun
    | .ok directory => done directory
    | .error _ => done false

/-- A value alone leaves the files alone. -/
@[simp]
theorem run_pure (value : α) (fs : FileSystem) :
    (pure value : FileProgram α).run fs = (value, fs) := rfl

/-- The second program is run on the files that the first one leaves. -/
@[simp]
theorem run_bind (p : FileProgram α) (f : α → FileProgram β) (fs : FileSystem) :
    (p >>= f).run fs = (f (p.run fs).1).run (p.run fs).2 := by
  show (p.bind f).run fs = _
  induction p generalizing fs with
  | done value => rfl
  | inspect path next ih => exact ih _ fs
  | read path next ih => exact ih _ fs
  | write path data next ih => exact ih _ _
  | makeDirectory path next ih => exact ih _ _
  | rename source target next ih => exact ih _ _

end FileProgram

end Linework
