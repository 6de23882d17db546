import Linework.Command.Basic
import Linework.Text

/-!
# `Linework.Command.Registry`: the commands of a session

A registry is a list of commands that a script can call without ambiguity: every
name is one that a line can spell, no two commands share one, and the parameters
of each command are in order. `Registry.build` checks all of it, command by
command in the order given, and reports the first fault; a fault within a command
comes before a clash of its names with others.

While it checks the names it enters them into an index, and the index is how a name
is looked up afterwards: it leads to the first command that goes by the name
(`lookup?_eq_find?`).
-/

set_option autoImplicit false

namespace Linework

namespace Command

/-- Whether a line can spell the name: it is not empty and has no blank in it. -/
def isUsableName (name : String) : Bool :=
  name ≠ "" && !name.toList.any Text.isBlank

/-- A usable name, said without a computation. -/
theorem isUsableName_iff {name : String} :
    isUsableName name = true ↔ name ≠ "" ∧ ∀ c ∈ name.toList, Text.isBlank c = false := by
  simp [isUsableName]

/-- The fault of one of the command's names. -/
def unusableName (c : Command) (name : String) : Failure :=
  .invalidCommand c.name ("'" ++ name ++ "' is not a usable command name")

/-- A fault of one of the command's parameters. -/
def badParam (c : Command) (p : Param) (reason : String) : Failure :=
  .invalidParam c.name p.name reason

/-- Checks the command's names, in order. -/
def checkNames (c : Command) : List String → Except Failure Unit
  | [] => .ok ()
  | name :: rest =>
    if isUsableName name then c.checkNames rest else .error (c.unusableName name)

/-- Checks that no required parameter declares a value. -/
def checkRequired (c : Command) : List Param → Except Failure Unit
  | [] => .ok ()
  | p :: rest =>
    if p.fallback.isSome then
      .error (c.badParam p "required params cannot declare a default")
    else c.checkRequired rest

/-- Checks parameters, in order, against the names that came before them. -/
def checkParams (c : Command) : List String → List Param → Except Failure Unit
  | _, [] => .ok ()
  | seen, p :: rest =>
    if Text.trim p.name = "" then .error (c.badParam p "param name is empty")
    else if p.name ∈ seen then .error (c.badParam p "param name is used twice")
    else if p.kind = .choice [] then
      .error (c.badParam p "enum params need at least one option")
    else c.checkParams (p.name :: seen) rest

/-- Checks a command by itself: names, required parameters, all parameters. -/
def validate (c : Command) : Except Failure Unit := do
  c.checkNames c.names
  c.checkRequired c.required
  c.checkParams [] c.params

end Command

/-- Commands that a script can call by name. -/
structure Registry where
  commands : List Command
  deriving Repr

namespace Registry

/-- Where the command of each name stands, in the order in which the names are entered. -/
abbrev Index := List (String × Nat)

/-- Enters names for the command at a position, unless one of them is entered already. -/
def enterNames (position : Nat) : Index → List String → Except Failure Index
  | index, [] => .ok index
  | index, name :: rest =>
    if name ∈ index.map Prod.fst then .error (.duplicateCommand name)
    else enterNames position (index ++ [(name, position)]) rest

/-- Checks the commands from a position on, in order, and enters the names of each after
those of the commands before it. -/
def enterAll : Nat → Index → List Command → Except Failure Index
  | _, index, [] => .ok index
  | position, index, c :: rest => do
    c.validate
    let index ← enterNames position index c.names
    enterAll (position + 1) index rest

/-- A registry of the given commands, if they go together. Its index is the one that
the check ends with. -/
def build (commands : List Command) : Except Failure Registry := do
  let _ ← enterAll 0 [] commands
  return ⟨commands⟩

/-- The names of commands that stand from a position on, each with where its command is. -/
def entries (position : Nat) (commands : List Command) : Index :=
  (commands.zipIdx position).flatMap fun entry => entry.1.names.map (·, entry.2)

/-- Where the command of each name stands. The commands say it all, so it is not kept. -/
def index (r : Registry) : Index := entries 0 r.commands

/-- The command that a line calls by this name. Case matters. -/
def lookup? (r : Registry) (name : String) : Option Command := do
  let position ← r.index.lookup name
  r.commands[position]?

/-- The names of the first command come before those of the others, which stand one place further
on. -/
theorem entries_cons (position : Nat) (c : Command) (rest : List Command) :
    entries position (c :: rest)
      = c.names.map (·, position) ++ entries (position + 1) rest := rfl

/-- The names entered for one command are its names. -/
theorem map_fst_entered (position : Nat) (ns : List String) :
    (ns.map (·, position)).map Prod.fst = ns := by
  rw [List.map_map]
  exact List.map_id ns

/-- The names in an index are those of the commands, in their order. -/
theorem map_fst_entries (position : Nat) (commands : List Command) :
    (entries position commands).map Prod.fst = commands.flatMap Command.names := by
  induction commands generalizing position with
  | nil => rfl
  | cons c rest ih => rw [entries_cons, List.map_append, map_fst_entered, ih, List.flatMap_cons]

/-- Each name entered for one command leads to the place of the command. -/
theorem lookup_entered (position : Nat) (ns : List String) (name : String) :
    (ns.map (·, position)).lookup name = if name ∈ ns then some position else none := by
  induction ns with
  | nil => rfl
  | cons n rest ih =>
    rw [List.map_cons, List.lookup_cons, ih]
    by_cases same : name = n
    · simp [same]
    · simp [same, beq_false_of_ne same]

/-- A name leads to the first command that goes by it. The places are counted on from the
first. -/
theorem lookup_entries (position : Nat) (commands : List Command) (name : String) :
    (entries position commands).lookup name
      = (commands.findIdx? fun c => name ∈ c.names).map (position + ·) := by
  induction commands generalizing position with
  | nil => rfl
  | cons c rest ih =>
    rw [entries_cons, List.lookup_append, lookup_entered, ih, List.findIdx?_cons]
    by_cases named : name ∈ c.names
    · simp [named]
    · simp [named, Function.comp_def, Nat.add_right_comm, Nat.add_assoc]

/-- The index leads to the first of the commands that go by the name. -/
theorem lookup?_eq_find? (r : Registry) (name : String) :
    r.lookup? name = r.commands.find? fun c => name ∈ c.names := by
  rw [lookup?, index, lookup_entries, List.find?_eq_bind_findIdx?_getElem?]
  simp

end Registry

end Linework
