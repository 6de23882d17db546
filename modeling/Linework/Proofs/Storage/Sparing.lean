import Linework.Proofs.Storage.Rooted
import Linework.Proofs.Storage.SettingsFile
import Mathlib.Logic.Relation

/-!
# `Linework.Proofs.Storage.Sparing`: what a replacement cannot harm

A replacement may fail at any of its steps, and then the files are as they were before that step.
However it ends, it has done nothing but a few steps of three kinds (`ReplacementStep`,
`steps_atomicWrite`): the new file is written beside the path, what is at the path is moved to the
backup, a directory with all that is in it, and the new file is moved to the path.

So there are three names in one directory that matter, and everything else is spared (`Spares`).
Directories are spared even at the names of the new file and of the backup: one at the first keeps
anything from happening, and one at the second can only be replaced by a directory. Each step
spares the rest (`ReplacementStep.spares`), and so does the whole replacement
(`spares_atomicWrite`).

Where a path leads depends on directories alone (`walk_of_directories`), so paths that do not go
through the replaced one lead where they led.
-/

set_option autoImplicit false

namespace Linework

open FileSystem Document

/-! ## Where paths lead among spared directories -/

namespace FileSystem

/-- A path leads where it led, if the directories on its way are still directories. Two file systems
in which it leads there may be used to say which these are. -/
theorem walk_of_directories {fs fs' after : FileSystem}
    (kept : ∀ loc, fs.node? loc = some .directory → fs'.node? loc = some .directory →
      after.node? loc = some .directory) {loc stop stop' : Location} {names : List String}
    (h : fs.walk loc names = .ok stop) (h' : fs'.walk loc names = .ok stop') :
    after.walk loc names = .ok stop := by
  induction names generalizing loc with
  | nil => exact h
  | cons name rest ih =>
    obtain ⟨directory, next, entered, onward⟩ := walk_cons_iff.mp h
    obtain ⟨directory', next', entered', onward'⟩ := walk_cons_iff.mp h'
    -- Both take the same step, for it is the name alone that says where it leads.
    cases entered.symm.trans entered'
    exact walk_cons_iff.mpr ⟨kept loc directory directory', next, entered, ih onward onward'⟩

/-- A path keeps its meaning as long as the directories on its way stay. -/
theorem Leads.of_directories {fs middle after : FileSystem} {path name : String} {dir : Location}
    (h : fs.Leads path dir name) (h' : middle.Leads path dir name)
    (same : middle.current = fs.current) (current : after.current = fs.current)
    (kept : ∀ loc, fs.node? loc = some .directory → middle.node? loc = some .directory →
      after.node? loc = some .directory) : after.Leads path dir name := by
  obtain ⟨above, spelled, reached⟩ := h.spelled
  obtain ⟨above', spelled', reached'⟩ := h'.spelled
  obtain ⟨rfl, -⟩ := List.append_inj' (spelled.symm.trans spelled') rfl
  rw [startOf_congr same] at reached'
  refine ⟨h.ordinary, kept dir h.directory h'.directory, above, spelled, ?_⟩
  rw [startOf_congr current]
  exact walk_of_directories kept reached reached'

/-- Paths into a directory lead there as long as directories stay. -/
theorem Opens.of_directories {fs after : FileSystem} {dir : String} {loc : Location}
    (h : fs.Opens dir loc) (current : after.current = fs.current)
    (kept : ∀ loc, fs.node? loc = some .directory → after.node? loc = some .directory) :
    after.Opens dir loc where
  directory := kept loc h.directory
  reached := by
    rw [startOf_congr current]
    exact walk_of_directories (fun loc there _ => kept loc there) h.reached h.reached

/-- What is neither moved nor replaced stays where it is. -/
theorem Movable.node?_of_present {fs : FileSystem} {source target loc : Location} {node : Node}
    (h : fs.Movable source target) (rooted : fs.Rooted) (there : fs.node? loc = some node)
    (away : ¬ source <+: loc) (ne : loc ≠ target) :
    (fs.moveNode source target).node? loc = some node := by
  rw [node?_moveNode_of_apart away, there]
  rintro ⟨rest, rfl⟩
  -- A node below the target would be in the way of the move, so there is none.
  have below : rest ≠ [] := by
    rintro rfl
    simp at ne
  rw [h.node?_below_target rooted below] at there
  cases there

end FileSystem

/-! ## What is spared -/

/-- Whatever becomes of a file and of its two siblings, the directories outside stay, and so do the
other files. -/
structure Spares (dir : Location) (name : String) (fs after : FileSystem) : Prop where
  current : after.current = fs.current
  directory : ∀ loc, fs.node? loc = some .directory → ¬ dir ++ [name] <+: loc →
    after.node? loc = some .directory
  file : ∀ loc data, fs.node? loc = some (.file data) → ¬ dir ++ [name] <+: loc →
    loc ≠ dir ++ [name ++ ".tmp"] → loc ≠ dir ++ [name ++ ".bak"] →
    after.node? loc = some (.file data)

namespace Spares

variable {fs middle after : FileSystem} {dir : Location} {name : String}

/-- Nothing is harmed if nothing happens. -/
theorem refl (fs : FileSystem) : Spares dir name fs fs where
  current := rfl
  directory _ there _ := there
  file _ _ there _ _ _ := there

/-- What two changes spare one after the other, they spare together. -/
theorem trans (h : Spares dir name fs middle) (h' : Spares dir name middle after) :
    Spares dir name fs after where
  current := h'.current.trans h.current
  directory loc there apart := h'.directory loc (h.directory loc there apart) apart
  file loc data there apart new backup :=
    h'.file loc data (h.file loc data there apart new backup) apart new backup

/-- Nothing is harmed where every node stays. -/
theorem of_present (current : after.current = fs.current)
    (kept : ∀ loc node, fs.node? loc = some node → after.node? loc = some node) :
    Spares dir name fs after where
  current := current
  directory loc there _ := kept loc _ there
  file loc _ there _ _ _ := kept loc _ there

/-- The new file is written where there is no directory. -/
theorem putNode {data : ByteArray}
    (free : fs.node? (dir ++ [name ++ ".tmp"]) ≠ some .directory) :
    Spares dir name fs (fs.putNode (dir ++ [name ++ ".tmp"]) (.file data)) where
  current := rfl
  directory loc there _ := by
    have other : loc ≠ dir ++ [name ++ ".tmp"] := by
      rintro rfl
      exact free there
    rwa [node?_putNode_of_ne other]
  file loc _ there _ new _ := by rwa [node?_putNode_of_ne new]

/-- A directory at the backup gives way to another directory only. -/
theorem moveNode_backup (rooted : fs.Rooted)
    (movable : fs.Movable (dir ++ [name]) (dir ++ [name ++ ".bak"])) :
    Spares dir name fs (fs.moveNode (dir ++ [name]) (dir ++ [name ++ ".bak"])) where
  current := rfl
  directory loc there apart := by
    by_cases backup : loc = dir ++ [name ++ ".bak"]
    · subst backup
      -- What was moved there instead is a directory too.
      rw [node?_moveNode_child_target (Beside.name_ne_backup name)]
      exact (movable.empty there).1
    · exact movable.node?_of_present rooted there apart backup
  file _ _ there apart _ backup := movable.node?_of_present rooted there apart backup

/-- The new file is moved alone, since there is nothing below a file. -/
theorem moveNode_new {data : ByteArray} (rooted : fs.Rooted)
    (movable : fs.Movable (dir ++ [name ++ ".tmp"]) (dir ++ [name]))
    (new : fs.node? (dir ++ [name ++ ".tmp"]) = some (.file data)) :
    Spares dir name fs (fs.moveNode (dir ++ [name ++ ".tmp"]) (dir ++ [name])) := by
  have kept {loc : Location} {node : Node} (there : fs.node? loc = some node)
      (apart : ¬ dir ++ [name] <+: loc) (other : loc ≠ dir ++ [name ++ ".tmp"]) :
      (fs.moveNode (dir ++ [name ++ ".tmp"]) (dir ++ [name])).node? loc = some node := by
    refine movable.node?_of_present rooted there ?_ fun same => apart (same ▸ List.prefix_refl _)
    rintro ⟨rest, rfl⟩
    have below : rest ≠ [] := by
      rintro rfl
      simp at other
    cases there.symm.trans (rooted.node?_below_file new below)
  constructor
  · rfl
  · intro loc there apart
    refine kept there apart ?_
    rintro rfl
    cases new.symm.trans there
  · intro loc data there apart other _
    exact kept there apart other

end Spares

/-! ## A replacement, however it ends -/

/-- One step of a replacement: the new file is written, or what is at the path is moved to the
backup, or the new file is moved to the path. -/
inductive ReplacementStep (dir : Location) (name : String) (data : ByteArray) :
    FileSystem → FileSystem → Prop
  | write {fs : FileSystem} (directory : fs.node? dir = some .directory)
      (free : fs.node? (dir ++ [name ++ ".tmp"]) ≠ some .directory) :
      ReplacementStep dir name data fs (fs.putNode (dir ++ [name ++ ".tmp"]) (.file data))
  | backUp {fs : FileSystem} (movable : fs.Movable (dir ++ [name]) (dir ++ [name ++ ".bak"])) :
      ReplacementStep dir name data fs (fs.moveNode (dir ++ [name]) (dir ++ [name ++ ".bak"]))
  | rename {fs : FileSystem} (movable : fs.Movable (dir ++ [name ++ ".tmp"]) (dir ++ [name]))
      (new : fs.node? (dir ++ [name ++ ".tmp"]) = some (.file data)) :
      ReplacementStep dir name data fs (fs.moveNode (dir ++ [name ++ ".tmp"]) (dir ++ [name]))

namespace ReplacementStep

variable {fs after : FileSystem} {dir : Location} {name : String} {data : ByteArray}

/-- After a step every node still lies in a directory. -/
theorem rooted (step : ReplacementStep dir name data fs after) (rooted : fs.Rooted) :
    after.Rooted := by
  cases step with
  | write directory free => exact rooted.putNode directory free
  | backUp movable => exact rooted.moveNode movable (rooted dir _ movable.present)
  | rename movable new => exact rooted.moveNode movable (rooted dir _ movable.present)

/-- A step harms nothing but the three names. -/
theorem spares (step : ReplacementStep dir name data fs after) (rooted : fs.Rooted) :
    Spares dir name fs after := by
  cases step with
  | write directory free => exact .putNode free
  | backUp movable => exact .moveNode_backup rooted movable
  | rename movable new => exact .moveNode_new rooted movable new

/-- No step puts a directory at the path. -/
theorem node?_ne_directory (step : ReplacementStep dir name data fs after)
    (clear : fs.node? (dir ++ [name]) ≠ some .directory) :
    after.node? (dir ++ [name]) ≠ some .directory := by
  have ne := Beside.name_ne_new name
  cases step with
  | write directory free => rwa [node?_putNode_child ne.symm]
  | backUp movable =>
    rw [node?_moveNode_child_source (Beside.name_ne_backup name)]
    simp
  | rename movable new =>
    rw [node?_moveNode_child_target ne.symm, new]
    simp

end ReplacementStep

namespace Document

section Replacing

variable {fs found : FileSystem} {path name : String} {dir : Location}

/-- What is at the path is moved to the backup, or nothing happens. -/
theorem backedUp_eq_or_movable (leads : fs.Leads path dir name) :
    backedUp path (Path.sibling path ".bak") fs = fs ∨
      fs.Movable (dir ++ [name]) (dir ++ [name ++ ".bak"]) ∧
        backedUp path (Path.sibling path ".bak") fs
          = fs.moveNode (dir ++ [name]) (dir ++ [name ++ ".bak"]) := by
  rcases backedUp_eq_or path (Path.sibling path ".bak") fs with same | renamed
  · exact .inl same
  rcases eq_or_movable_of_rename renamed with
    same | ⟨s, t, place, place', source, target, located, located', movable, moved⟩
  · exact .inl same
  -- The rename has found the path and its backup in the directory that the path leads to.
  · cases leads.eq_of_target source
    obtain ⟨rfl, -⟩ := leads.of_target_sibling rfl (by decide) (by decide) target
    cases located
    cases located'
    exact .inr ⟨movable, moved⟩

/-- The new file is moved to the path, or nothing happens. -/
theorem run_renamePath_new (leads : found.Leads path dir name)
    (current : fs.current = found.current) :
    ((renamePath (Path.sibling path ".tmp") path).run fs).2 = fs ∨
      fs.Movable (dir ++ [name ++ ".tmp"]) (dir ++ [name]) ∧
        ((renamePath (Path.sibling path ".tmp") path).run fs).2
          = fs.moveNode (dir ++ [name ++ ".tmp"]) (dir ++ [name]) := by
  simp only [renamePath, FileProgram.run]
  cases renamed : fs.rename (Path.sibling path ".tmp") path with
  | error e => exact .inl rfl
  | ok after =>
    rcases eq_or_movable_of_rename renamed with
      same | ⟨s, t, place, place', source, target, located, located', movable, moved⟩
    · exact .inl same
    · -- That the new file is found shows where the path leads now.
      obtain ⟨rfl, here⟩ := leads.of_target_sibling current (by decide) (by decide) source
      cases here.eq_of_target target
      cases located
      cases located'
      exact .inr ⟨movable, moved⟩

/-- The files after the new one was written. -/
theorem run_atomicWrite_of_write {data : ByteArray} {written : FileSystem}
    (wrote : fs.write (Path.sibling path ".tmp") data = .ok written) :
    ((atomicWrite path data).run fs).2 = ((renamePath (Path.sibling path ".tmp") path).run
      (backedUp path (Path.sibling path ".bak") written)).2 := by
  simp only [atomicWrite, andThen, FileProgram.run_bind, writeFile, FileProgram.run, wrote,
    FileProgram.answer, backedUp]

/-- Whether or not it succeeds, a replacement has taken such steps and no others. The path may lead
nowhere by now, as long as it led to the directory at some time. -/
theorem steps_atomicWrite (leads : found.Leads path dir name)
    (current : fs.current = found.current) (data : ByteArray) :
    Relation.ReflTransGen (ReplacementStep dir name data) fs ((atomicWrite path data).run fs).2 := by
  -- If the new file cannot be written, no step is taken at all.
  cases wrote : fs.write (Path.sibling path ".tmp") data with
  | error e => rw [run_atomicWrite_of_error wrote]
  | ok written =>
    obtain ⟨t, place, target, located, free, rfl⟩ := exists_of_write wrote
    obtain ⟨rfl, here⟩ := leads.of_target_sibling current (by decide) (by decide) target
    cases located
    rw [run_atomicWrite_of_write wrote]
    have new : (fs.putNode (dir ++ [name ++ ".tmp"]) (.file data)).node? (dir ++ [name ++ ".tmp"])
        = some (.file data) := node?_putNode_self (by simp)
    have first : Relation.ReflTransGen (ReplacementStep dir name data) fs
        (fs.putNode (dir ++ [name ++ ".tmp"]) (.file data)) :=
      .single (.write here.directory free)
    have later : (fs.putNode (dir ++ [name ++ ".tmp"]) (.file data)).Leads path dir name :=
      here.putNode free
    generalize fs.putNode (dir ++ [name ++ ".tmp"]) (.file data) = written at new first later
    -- The backup leaves the new file where it is.
    obtain ⟨second, new, still⟩ : Relation.ReflTransGen (ReplacementStep dir name data) fs
          (backedUp path (Path.sibling path ".bak") written) ∧
        (backedUp path (Path.sibling path ".bak") written).node? (dir ++ [name ++ ".tmp"])
          = some (.file data) ∧
        (backedUp path (Path.sibling path ".bak") written).current = written.current := by
      rcases backedUp_eq_or_movable later with same | ⟨movable, moved⟩
      · rw [same]
        exact ⟨first, new, rfl⟩
      · rw [moved, node?_moveNode_child (Beside.name_ne_new name) (Beside.new_ne_backup name).symm]
        exact ⟨first.tail (.backUp movable), new, rfl⟩
    rcases run_renamePath_new later still with same | ⟨movable, moved⟩
    · rwa [same]
    · rw [moved]
      exact second.tail (.rename movable new)

/-- However a replacement ends, it has harmed nothing but its three names. -/
theorem spares_atomicWrite (rooted : fs.Rooted) (leads : found.Leads path dir name)
    (current : fs.current = found.current) (data : ByteArray) :
    Spares dir name fs ((atomicWrite path data).run fs).2 := by
  have steps := steps_atomicWrite leads current data
  generalize ((atomicWrite path data).run fs).2 = after at steps ⊢
  -- Step by step, what is moved must stay above what is below it, so this is kept along with the
  -- rest.
  suffices run : Spares dir name fs after ∧ after.Rooted from run.1
  induction steps with
  | refl => exact ⟨.refl fs, rooted⟩
  | tail _ step ih => exact ⟨ih.1.trans (step.spares ih.2), step.rooted ih.2⟩

/-- A replacement never leaves a directory at its path that was not there. -/
theorem node?_atomicWrite_ne_directory (leads : found.Leads path dir name)
    (current : fs.current = found.current) (data : ByteArray)
    (clear : fs.node? (dir ++ [name]) ≠ some .directory) :
    ((atomicWrite path data).run fs).2.node? (dir ++ [name]) ≠ some .directory := by
  have steps := steps_atomicWrite leads current data
  generalize ((atomicWrite path data).run fs).2 = after at steps ⊢
  induction steps with
  | refl => exact clear
  | tail _ step ih => exact step.node?_ne_directory ih

end Replacing

/-! ## Making directories -/

/-- A directory is made where there is nothing. -/
theorem spares_ensureDirectory (path : String) (fs : FileSystem) {dir : Location} {name : String} :
    Spares dir name fs ((ensureDirectory path).run fs).2 := by
  rw [ensureDirectory, FileProgram.run]
  cases made : fs.makeDirectory path with
  | error e =>
    have same : ((FileProgram.isDirectory path).run fs).2 = fs := by
      simp only [FileProgram.isDirectory, FileProgram.run]
      cases fs.find path <;> rfl
    simp only [FileProgram.answer, FileProgram.run_bind, same]
    split <;> exact .refl fs
  | ok after =>
    obtain ⟨-, loc, -, -, free, rfl⟩ := exists_of_makeDirectory made
    refine .of_present rfl fun other node there => (node?_putNode_of_ne ?_).trans there
    rintro rfl
    cases free.symm.trans there

/-- Making a directory harms nothing, whichever of those above it are made first. -/
theorem spares_makeDirectories (steps : Nat) (path : String) (fs : FileSystem) {dir : Location}
    {name : String} : Spares dir name fs ((makeDirectories steps path).run fs).2 := by
  induction steps generalizing path fs with
  | zero => exact .refl fs
  | succ steps ih =>
    rw [makeDirectories]
    split
    · exact .refl fs
    rw [FileProgram.run_bind]
    have tried : Spares dir name fs ((ensureDirectory path).run fs).2 :=
      spares_ensureDirectory path fs
    split
    · exact tried
    · -- Those above are made first, and then it is tried again.
      split
      · exact tried
      · rename_i above parent
        rw [andThen, FileProgram.run_bind]
        have made := tried.trans (ih above _)
        split
        · exact made.trans (spares_ensureDirectory path _)
        · exact made
    · exact tried

end Document

/-! ## Settings that are saved -/

namespace Settings

variable {fs found : FileSystem} {dir : String} {loc : Location}

/-- To save settings harms nothing but the settings file and its siblings, wherever their directory
was found. -/
theorem spares_save (rooted : fs.Rooted) (opens : found.Opens dir loc)
    (current : fs.current = found.current) (s : Settings) :
    Spares loc "settings.json" fs ((save dir s).run fs).2 := by
  rw [save, andThen, FileProgram.run_bind]
  have made : Spares loc "settings.json" fs ((createDirectories dir).run fs).2 :=
    spares_makeDirectories _ dir fs
  split
  · exact made.trans (spares_atomicWrite (rooted.run _) (leads_settingsPath opens)
      (made.current.trans current) _)
  · exact made

/-- Where there is a directory for them, saving settings does not make one of their file. -/
theorem node?_save_ne_directory (opens : fs.Opens dir loc) (s : Settings)
    (clear : fs.node? (loc ++ ["settings.json"]) ≠ some .directory) :
    ((save dir s).run fs).2.node? (loc ++ ["settings.json"]) ≠ some .directory := by
  have same := (run_createDirectories opens.walk_names opens.directory).1
  rw [save, andThen, FileProgram.run_bind, same]
  split
  · exact node?_atomicWrite_ne_directory (leads_settingsPath opens) rfl _ clear
  · exact clear

end Settings

end Linework
