import Linework.Storage.Path

/-!
# `Linework.Storage.FileSystem`: files and directories

A file system maps locations to nodes. A location is the list of names from the
root down, without detours; a node is a file with its bytes or a directory. A
path is followed name by name (`walk`): every name is looked up in a directory,
`..` goes to the directory above, and a path that ends in a slash must lead to a
directory.

The operations are those of a Unix system, each of which either succeeds or fails
with an `OsError` and then changes nothing. There are no links. A path and each of
its names have a greatest length: a path that is too long fails as a whole
(`admissible`), a name that is too long when the walk gets to it (`enter`).
-/

set_option autoImplicit false

namespace Linework

/-- Why a file operation failed. -/
inductive OsError where
  | notFound
  | busy
  | exists
  | notDirectory
  | isDirectory
  | invalid
  | nameTooLong
  | notEmpty
  /-- A path has a NUL character in it and cannot be handed to the system. -/
  | nulInPath
  deriving DecidableEq, Repr

namespace OsError

/-- The system's words for the error. -/
def message : OsError → String
  | notFound => "No such file or directory (os error 2)"
  | busy => "Device or resource busy (os error 16)"
  | «exists» => "File exists (os error 17)"
  | notDirectory => "Not a directory (os error 20)"
  | isDirectory => "Is a directory (os error 21)"
  | invalid => "Invalid argument (os error 22)"
  | nameTooLong => "File name too long (os error 36)"
  | notEmpty => "Directory not empty (os error 39)"
  | nulInPath => "file name contained an unexpected NUL byte"

end OsError

/-- The names from the root down to a node. -/
abbrev Location := List String

/-- What a location holds. -/
inductive Node where
  | file (data : ByteArray)
  | directory

namespace Node

/-- Whether the node is a directory. -/
def isDirectory : Node → Bool
  | directory => true
  | file _ => false

end Node

/-- Files and directories, and the directory where relative paths begin. -/
structure FileSystem where
  /-- The nodes below the root. -/
  nodes : List (Location × Node)
  current : Location

namespace FileSystem

/-- What a location holds, if anything. The root is always there. -/
def node? (fs : FileSystem) (loc : Location) : Option Node :=
  if loc = [] then some .directory else fs.nodes.lookup loc

/-- Removes what a location holds. -/
def removeNode (fs : FileSystem) (loc : Location) : FileSystem :=
  { fs with nodes := fs.nodes.filter fun entry => entry.1 ≠ loc }

/-- Puts a node at a location. -/
def putNode (fs : FileSystem) (loc : Location) (node : Node) : FileSystem :=
  { fs with nodes := (loc, node) :: (fs.removeNode loc).nodes }

/-- Whether a directory holds anything. -/
def hasChildren (fs : FileSystem) (loc : Location) : Bool :=
  fs.nodes.any fun entry => entry.1 ≠ loc && loc.isPrefixOf entry.1

/-- The location of a node after the node at `source` has moved to `target`. -/
def relocate (source target loc : Location) : Location :=
  if source.isPrefixOf loc then target ++ loc.drop source.length else loc

/-- Moves a node, and all below it, to a location that holds nothing below. -/
def moveNode (fs : FileSystem) (source target : Location) : FileSystem :=
  let cleared := fs.removeNode target
  { cleared with
    nodes := cleared.nodes.map fun entry => (relocate source target entry.1, entry.2) }

/-- Where following a path begins. -/
def startOf (fs : FileSystem) (path : String) : Location :=
  if Path.isAbsolute path then [] else fs.current

/-- The most bytes that a name may have. -/
def nameLimit : Nat := 255

/-- The most bytes that a path may have, its names and slashes together. -/
def pathLimit : Nat := 4095

/-- One step from a directory along a name. -/
def enter (loc : Location) (name : String) : Except OsError Location :=
  if Path.isIdle name then .ok loc
  else if name = ".." then .ok loc.dropLast
  else if nameLimit < name.utf8ByteSize then .error .nameTooLong
  else .ok (loc ++ [name])

/-- Follows names from a location. What a name is looked up in has to be a
directory; what the last name leads to need not exist. -/
def walk (fs : FileSystem) (loc : Location) : List String → Except OsError Location
  | [] => .ok loc
  | name :: rest =>
    -- Even an idle name is looked up in a directory only.
    match fs.node? loc with
    | none => .error .notFound
    | some (.file _) => .error .notDirectory
    | some .directory =>
      match enter loc name with
      | .error e => .error e
      | .ok next => fs.walk next rest

/-- The faults of a path that no system call takes, wherever it leads. They are
found before any of its names is looked up. -/
def admissible (path : String) : Except OsError Unit :=
  if path.toList.any (· = '\x00') then .error .nulInPath
  else if path = "" then .error .notFound
  else if pathLimit < path.utf8ByteSize then .error .nameTooLong
  else .ok ()

/-- The location that a path leads to, whether or not anything is there. -/
def locate (fs : FileSystem) (path : String) : Except OsError Location :=
  match admissible path with
  | .error e => .error e
  | .ok () => fs.walk (fs.startOf path) (Path.names path)

/-- What a path leads to. -/
def find (fs : FileSystem) (path : String) : Except OsError Node :=
  match fs.locate path with
  | .error e => .error e
  | .ok loc =>
    match fs.node? loc with
    | some node => .ok node
    | none => .error .notFound

/-- The last name of a path as the system sees it, with the directory that it is
looked up in. -/
structure Target where
  directory : Location
  /-- Absent when the path ends in the root, `.` or `..`. -/
  name? : Option String
  /-- Whether a slash follows the name. -/
  slash : Bool

namespace Target

/-- The location of the node that the target names. -/
def location? (t : Target) : Option Location :=
  t.name?.map fun name => t.directory ++ [name]

end Target

/-- The names of a path up to its last one, and the last one. Slashes at the end
belong to the last name. -/
def splitLast (ns : List String) : List String × Option String :=
  let kept := (ns.reverse.dropWhile (· = "")).reverse
  (kept.dropLast, kept.getLast?)

/-- Finds the directory of a path's last name. -/
def target (fs : FileSystem) (path : String) : Except OsError Target :=
  match admissible path with
  | .error e => .error e
  | .ok () =>
    let (above, last) := splitLast (Path.names path)
    match fs.walk (fs.startOf path) above with
    | .error e => .error e
    | .ok directory =>
      match fs.node? directory with
      | none => .error .notFound
      | some (.file _) => .error .notDirectory
      | some .directory =>
        -- A path that ends in such a name stands for a directory, but does not name it.
        let name? := last.filter fun name => !(Path.isIdle name || name = "..")
        if name?.any fun name => nameLimit < name.utf8ByteSize then .error .nameTooLong
        else .ok ⟨directory, name?, Path.endsInSlash path⟩

/-- The bytes of a file. -/
def read (fs : FileSystem) (path : String) : Except OsError ByteArray :=
  match fs.find path with
  | .error e => .error e
  | .ok .directory => .error .isDirectory
  | .ok (.file data) => .ok data

/-- Makes a file with the given bytes, in place of the one there was. -/
def write (fs : FileSystem) (path : String) (data : ByteArray) : Except OsError FileSystem :=
  match fs.target path with
  | .error e => .error e
  | .ok t =>
    match t.location? with
    | none => .error .isDirectory
    | some loc =>
      if t.slash then .error .isDirectory
      else match fs.node? loc with
        | some .directory => .error .isDirectory
        | _ => .ok (fs.putNode loc (.file data))

/-- Makes a directory. -/
def makeDirectory (fs : FileSystem) (path : String) : Except OsError FileSystem :=
  match fs.target path with
  | .error e => .error e
  | .ok t =>
    match t.location? with
    | none => .error .exists
    | some loc =>
      match fs.node? loc with
      | some _ => .error .exists
      | none => .ok (fs.putNode loc .directory)

/-- Moves the node at one location to another one, in place of what is there. -/
def renameNode (fs : FileSystem) (source target : Location) : Except OsError FileSystem :=
  match fs.node? source, fs.node? target with
  | none, _ => .error .notFound
  | some (.file _), some .directory => .error .isDirectory
  | some .directory, some (.file _) => .error .notDirectory
  | some .directory, some .directory =>
    if source = target then .ok fs
    else if fs.hasChildren target then .error .notEmpty
    else .ok (fs.moveNode source target)
  | some _, _ => if source = target then .ok fs else .ok (fs.moveNode source target)

/-- Whether a location lies below another one. -/
def isBelow (loc above : Location) : Bool :=
  loc ≠ above && above.isPrefixOf loc

/-- Renames a path. A file cannot get a name with a slash after it, and a
directory cannot be moved into itself. -/
def rename (fs : FileSystem) (source target : String) : Except OsError FileSystem :=
  match fs.target source with
  | .error e => .error e
  | .ok s =>
    match fs.target target with
    | .error e => .error e
    | .ok t =>
      match s.location?, t.location? with
      | some from', some to' =>
        match fs.node? from' with
        | none => .error .notFound
        | some node =>
          -- What the system refuses it refuses in this order.
          if !node.isDirectory && (s.slash || t.slash) then .error .notDirectory
          else if isBelow to' from' then .error .invalid
          else if isBelow from' to' then .error .notEmpty
          else fs.renameNode from' to'
      | _, _ => .error .busy

/-- An empty file system whose relative paths begin in a directory of the given
name. -/
def withWorkingDirectory (name : String) : FileSystem :=
  ⟨[([name], .directory)], [name]⟩

end FileSystem

end Linework
