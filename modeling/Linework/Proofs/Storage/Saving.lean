import Linework.Proofs.Storage.Replacement

/-!
# `Linework.Proofs.Storage.Saving`: what is saved is there

A replacement that ends well has put the new file at its path (`read_of_atomicWrite`). Nothing is
assumed of the files before, nor of the path: there may be a directory at the path, at the backup
or at the new file's name, the path may go through any of them, and slashes may follow its last
name.

What makes this so is that names alone say where a path leads, if it leads anywhere
(`walk_unique`). The last rename finds the directory of the new file, so it is the one that the
file was written to, and the backup before it was made there too. All three names stand in that
directory (`Beside`), and what happens is an exchange of nodes among them
(`exists_beside_of_atomicWrite`).
-/

set_option autoImplicit false

namespace Linework

/-! ## Slashes after the last name -/

namespace Path

/-- A path is known by its names. -/
theorem names_injective {path path' : String} (h : names path = names path') : path = path' := by
  have same := Text.intercalate_pieces '/' path
  change (String.singleton '/').intercalate (names path) = path at same
  rw [← same, h]
  exact Text.intercalate_pieces '/' path'

/-- A path with an empty name at its end ends in a slash. -/
theorem endsInSlash_of_names_append {path : String} {above : List String} (ne : above ≠ [])
    (h : names path = above ++ [""]) : endsInSlash path = true := by
  have noSlash : ∀ n ∈ above, '/' ∉ n.toList := fun n among =>
    Text.not_mem_of_mem_pieces (s := path) (h ▸ List.mem_append_left _ among : n ∈ names path)
  have spelled : names ("/".intercalate above ++ "/" ++ "") = names path := by
    rw [names_append, names_intercalate ne noSlash, h]
    rfl
  -- The path can only be the names above with a slash after them.
  rw [← names_injective spelled]
  simp [endsInSlash]

/-- Idle names that follow are left out with those before them. -/
theorem dropIdleEnd_append {ns idle : List String} (h : ∀ n ∈ idle, isIdle n = true) :
    dropIdleEnd (ns ++ idle) = dropIdleEnd ns := by
  have reversed : ∀ n ∈ idle.reverse, isIdle n = true := by simpa using h
  rw [dropIdleEnd, List.reverse_append, List.dropWhile_append_of_pos reversed, dropIdleEnd]

/-- A path without the slashes after its last name. -/
def bare (path : String) : String :=
  "/".intercalate ((names path).rdropWhile (· = ""))

section Bare

variable {path name : String} {above blanks : List String}
  (h : names path = above ++ name :: blanks) (blank : ∀ b ∈ blanks, b = "")
  (ordinary : Ordinary name)
include h blank ordinary

/-- The bare path has the names up to the last one that is not empty. -/
theorem names_bare : names (bare path) = above ++ [name] := by
  have kept : (names path).rdropWhile (· = "") = above ++ [name] := by
    have reversed : ∀ b ∈ blanks.reverse, decide (b = "") = true := by simpa using blank
    rw [h, List.append_cons, List.rdropWhile, List.reverse_append,
      List.dropWhile_append_of_pos reversed]
    exact List.rdropWhile_concat_neg _ _ _ (by simpa using ordinary.ne_empty)
  rw [bare, kept]
  refine names_intercalate (by simp) fun n among => ?_
  have among : n ∈ names path := by
    rw [h, List.append_cons]
    exact List.mem_append_left _ among
  exact Text.not_mem_of_mem_pieces among

/-- Slashes at the end do not decide where a path starts. -/
theorem isAbsolute_bare : isAbsolute (bare path) = isAbsolute path := by
  rw [Bool.eq_iff_iff, isAbsolute_iff, isAbsolute_iff, names_bare h blank ordinary, h]
  cases above with
  | nil => simp [ordinary.ne_empty]
  | cons first rest => simp

/-- Without slashes there is nothing to leave out. -/
theorem bare_eq_self (ends : endsInSlash path = false) : bare path = path := by
  rcases List.eq_nil_or_concat blanks with rfl | ⟨others, last, rfl⟩
  · exact names_injective ((names_bare h blank ordinary).trans h.symm)
  · have empty : last = "" := blank last (by simp)
    have split : names path = (above ++ name :: others) ++ [""] := by simp [h, empty]
    rw [endsInSlash_of_names_append (by simp) split] at ends
    cases ends

/-- A path and its bare form have the same siblings. -/
theorem sibling_bare (ending : String) : sibling (bare path) ending = sibling path ending := by
  have idle : ∀ b ∈ blanks, isIdle b = true := by
    intro b among
    rw [blank b among]
    rfl
  have spelled := names_bare h blank ordinary
  have file : fileName? path = some name := by
    have skipped : blanks.filter (fun n => !isIdle n) = [] := by simpa using idle
    simp [fileName?, h, List.filter_append, ordinary.not_idle, skipped,
      ordinary.not_up]
  -- The directory is what is left when the last name is gone, and then the blanks are idle too.
  have parent : parent? (bare path) = parent? path := by
    simp only [parent?, spelled, h]
    cases above with
    | nil =>
      have none : dropIdleEnd ([] ++ blanks) = dropIdleEnd [] := dropIdleEnd_append idle
      rw [List.nil_append] at none
      simp [none]
    | cons first rest =>
      simp [List.append_cons rest name blanks, dropIdleEnd_append idle, -List.append_assoc]
  simp only [sibling, withFileName, fileName?_of_names spelled ordinary, file, parent]

end Bare

end Path

/-! ## Where a path leads -/

namespace FileSystem

/-- Names lead to one place at most, whatever is there. -/
theorem walk_unique {fs fs' : FileSystem} {loc stop stop' : Location} {names : List String}
    (h : fs.walk loc names = .ok stop) (h' : fs'.walk loc names = .ok stop') : stop = stop' := by
  induction names generalizing loc with
  | nil =>
    cases h
    cases h'
    rfl
  | cons name rest ih =>
    -- Which directory a name enters is said by the name, so both walks enter the same.
    obtain ⟨-, next, entered, onward⟩ := walk_cons_iff.mp h
    obtain ⟨-, next', entered', onward'⟩ := walk_cons_iff.mp h'
    cases entered.symm.trans entered'
    exact ih onward onward'

/-- Idle names lead from a directory to itself. -/
theorem walk_idle_of_directory {fs : FileSystem} {dir : Location}
    (h : fs.node? dir = some .directory) {idle : List String}
    (skipped : ∀ n ∈ idle, Path.isIdle n = true) : fs.walk dir idle = .ok dir := by
  induction idle with
  | nil => rfl
  | cons n rest ih =>
    obtain ⟨here, others⟩ := List.forall_mem_cons.mp skipped
    exact walk_cons_iff.mpr ⟨h, dir, if_pos here, ih others⟩

section Targets

variable {fs fs' : FileSystem} {path name : String} {dir : Location} {above : List String}

/-- The last name of a path, if it is one to be looked up. -/
def lastName? (path : String) : Option String :=
  (splitLast (Path.names path)).2.filter fun name => !(Path.isIdle name || name = "..")

/-- A path has a target exactly if the system takes it and its last name, and the names before
that lead to a directory. -/
theorem target_eq_ok_iff {t : Target} :
    fs.target path = .ok t ↔
      admissible path = .ok () ∧ (∀ name ∈ lastName? path, name.utf8ByteSize ≤ nameLimit) ∧
        ∃ dir, fs.walk (fs.startOf path) (splitLast (Path.names path)).1 = .ok dir ∧
          fs.node? dir = some .directory ∧ t = ⟨dir, lastName? path, Path.endsInSlash path⟩ := by
  unfold target lastName?
  cases admissible path with
  | error e => simp
  | ok =>
    simp only [true_and]
    cases fs.walk (fs.startOf path) (splitLast (Path.names path)).1 with
    | error e => simp
    | ok loc =>
      simp only [Except.ok.injEq, exists_eq_left']
      -- Only a directory can be looked into, so the other kinds have no target.
      rcases fs.node? loc with _ | _ | _
      · simp
      · simp
      · simp only [true_and]
        generalize (splitLast (Path.names path)).2.filter _ = last
        cases last with
        | none => simp [eq_comm]
        | some name =>
          by_cases long : nameLimit < name.utf8ByteSize
          · simp [long, Nat.not_le.mpr long]
          · simp [long, Nat.not_lt.mp long, eq_comm]

/-- A path has one target at most, whatever is there. -/
theorem target_unique (current : fs'.current = fs.current) {t t' : Target}
    (h : fs.target path = .ok t) (h' : fs'.target path = .ok t') : t = t' := by
  obtain ⟨-, -, dir, reached, -, rfl⟩ := target_eq_ok_iff.mp h
  obtain ⟨-, -, dir', reached', -, rfl⟩ := target_eq_ok_iff.mp h'
  rw [startOf_congr current] at reached'
  rw [walk_unique reached reached']

/-- The last name of a path, and where it is looked up. -/
theorem exists_names_of_target {slash : Bool} (h : fs.target path = .ok ⟨dir, some name, slash⟩) :
    (admissible path = .ok () ∧ name.utf8ByteSize ≤ nameLimit) ∧ Path.Ordinary name ∧
      fs.node? dir = some .directory ∧ slash = Path.endsInSlash path ∧
      ∃ above blanks, Path.names path = above ++ name :: blanks ∧ (∀ b ∈ blanks, b = "") ∧
        fs.walk (fs.startOf path) above = .ok dir := by
  obtain ⟨taken, short, loc, reached, directory, same⟩ := target_eq_ok_iff.mp h
  simp only [Target.mk.injEq] at same
  obtain ⟨rfl, named, slashed⟩ := same
  obtain ⟨last, ordinary⟩ := Option.filter_eq_some_iff.mp named.symm
  simp only [Bool.not_eq_true', Bool.or_eq_false_iff, decide_eq_false_iff_not] at ordinary
  refine ⟨⟨taken, short name named.symm⟩, ⟨ordinary.1, ordinary.2⟩, directory, slashed, _,
    (Path.names path).rtakeWhile (· = ""), ?_, ?_, reached⟩
  -- The empty names at the end are the blanks, and the last of the others is the name.
  · have kept : (Path.names path).rdropWhile (· = "")
        = (splitLast (Path.names path)).1 ++ [name] :=
      (List.dropLast_append_getLast? name last).symm
    rw [List.append_cons, ← kept, List.rdropWhile_append_rtakeWhile]
  · intro b among
    simpa using List.mem_rtakeWhile_imp among

/-- Once the slashes are gone that follow its last name, a path stands for the name in a
directory. -/
theorem leads_bare {slash : Bool} (h : fs.target path = .ok ⟨dir, some name, slash⟩) :
    fs.Leads (Path.bare path) dir name := by
  obtain ⟨-, ordinary, directory, -, above, blanks, spelled, blank, reached⟩ :=
    exists_names_of_target h
  have start : fs.startOf (Path.bare path) = fs.startOf path := by
    rw [startOf, startOf, Path.isAbsolute_bare spelled blank ordinary]
  exact ⟨ordinary, directory, above, Path.names_bare spelled blank ordinary, start ▸ reached⟩

/-- A path with a name to look up has the same siblings as its bare form. -/
theorem sibling_bare_of_target {slash : Bool} (h : fs.target path = .ok ⟨dir, some name, slash⟩)
    (ending : String) : Path.sibling (Path.bare path) ending = Path.sibling path ending := by
  obtain ⟨-, ordinary, -, -, above, blanks, spelled, blank, -⟩ := exists_names_of_target h
  exact Path.sibling_bare spelled blank ordinary ending

/-- A path without a slash at its end is taken as it is. -/
theorem bare_of_target (h : fs.target path = .ok ⟨dir, some name, false⟩) :
    Path.bare path = path ∧ Fits path name := by
  obtain ⟨⟨taken, short⟩, ordinary, -, slash, above, blanks, spelled, blank, -⟩ :=
    exists_names_of_target h
  exact ⟨Path.bare_eq_self spelled blank ordinary slash.symm, taken, short⟩

/-- A path leads to where its sibling is found. -/
theorem exists_leads_of_target_sibling (spelled : Path.names path = above ++ [name])
    (ordinary : Path.Ordinary name) {ending : String} (noSlash : '/' ∉ ending.toList)
    (long : 2 ≤ ending.length) {t : Target} (ok : fs.target (Path.sibling path ending) = .ok t) :
    ∃ dir, fs.Leads path dir name := by
  obtain ⟨-, -, dir, found, directory, -⟩ := target_eq_ok_iff.mp ok
  rw [Path.names_sibling spelled ordinary noSlash,
    splitLast_append (ordinary.append long).ne_empty,
    startOf_sibling spelled ordinary noSlash] at found
  -- The sibling leaves out idle names only, and from a directory they lead nowhere else.
  obtain ⟨idle, split, skipped⟩ := Path.exists_eq_keptAbove_append above
  refine ⟨dir, ordinary, directory, above, spelled, ?_⟩
  rw [split]
  exact walk_append_iff.mpr ⟨dir, found, walk_idle_of_directory directory skipped⟩

/-- If a sibling is found, it is found in the directory of the path. -/
theorem Leads.of_target_sibling (h : fs.Leads path dir name) (current : fs'.current = fs.current)
    {ending : String} (noSlash : '/' ∉ ending.toList) (long : 2 ≤ ending.length) {t : Target}
    (ok : fs'.target (Path.sibling path ending) = .ok t) :
    t = ⟨dir, some (name ++ ending), false⟩ ∧ fs'.Leads path dir name := by
  obtain ⟨above, spelled, reached⟩ := h.spelled
  obtain ⟨loc, leads⟩ := exists_leads_of_target_sibling spelled h.ordinary noSlash long ok
  -- The path has the same names on either side.
  obtain rfl : loc = dir := by
    obtain ⟨above', spelled', reached'⟩ := leads.spelled
    obtain ⟨rfl, -⟩ := List.append_inj' (spelled.symm.trans spelled') rfl
    rw [startOf_congr current] at reached'
    exact walk_unique reached' reached
  exact ⟨(leads.sibling noSlash (h.ordinary.append long)).eq_of_target ok, leads⟩

/-! ## What an operation that succeeds has done -/

/-- A file that was written was put at the target of its path, where there was no directory. -/
theorem exists_of_write {data : ByteArray} {after : FileSystem}
    (h : fs.write path data = .ok after) :
    ∃ t loc, fs.target path = .ok t ∧ t.location? = some loc ∧
      fs.node? loc ≠ some .directory ∧ after = fs.putNode loc (.file data) := by
  unfold write at h
  -- Each check that failed would have been the answer.
  split at h
  · cases h
  rename_i t found
  split at h
  · cases h
  rename_i loc located
  split at h
  · cases h
  split at h
  · cases h
  rename_i free
  exact ⟨t, loc, found, located, free, (Except.ok.inj h).symm⟩

/-- A rename that goes well has found both targets and a node at the first. Only a directory may
be named with a slash at the end. -/
theorem exists_of_rename {source target : String} {after : FileSystem}
    (h : fs.rename source target = .ok after) :
    ∃ s t place place' node, fs.target source = .ok s ∧ fs.target target = .ok t ∧
      s.location? = some place ∧ t.location? = some place' ∧ fs.node? place = some node ∧
      (node.isDirectory = false → t.slash = false) ∧ fs.renameNode place place' = .ok after := by
  unfold rename at h
  split at h
  · cases h
  rename_i s foundSource
  split at h
  · cases h
  rename_i t foundTarget
  split at h
  · rename_i place place' located located'
    split at h
    · cases h
    rename_i node there
    split_ifs at h with slashed
    refine ⟨s, t, place, place', node, foundSource, foundTarget, located, located', there, ?_, h⟩
    intro file
    simp only [file, Bool.not_false, Bool.true_and, Bool.or_eq_true, not_or] at slashed
    simpa using slashed.2
  · cases h

/-- A node takes the place of another, but for a file that of a directory. -/
theorem renameNode_eq_ok {source target : Location} (ne : source ≠ target) {after : FileSystem}
    (h : fs.renameNode source target = .ok after) :
    after = fs.moveNode source target ∧
      (fs.node? target = some .directory → fs.node? source = some .directory) := by
  rcases here : fs.node? source with _ | bytes | _ <;>
    rcases there : fs.node? target with _ | former | _ <;>
    simp only [renameNode, here, there, ne, if_false, reduceCtorEq, Except.ok.injEq] at h
  -- A file moves to where there is none or another one, and a directory to where there is none.
  · exact ⟨h.symm, by simp⟩
  · exact ⟨h.symm, by simp⟩
  · exact ⟨h.symm, by simp⟩
  · split_ifs at h
    exact ⟨(Except.ok.inj h).symm, fun _ => rfl⟩

/-- A rename leaves the working directory where it is. -/
theorem current_of_rename {source target : String} {after : FileSystem}
    (h : fs.rename source target = .ok after) : after.current = fs.current := by
  obtain ⟨-, -, place, place', node, -, -, -, -, there, -, moved⟩ := exists_of_rename h
  -- A rename to the same place changes nothing at all.
  by_cases same : place = place'
  · subst same
    cases node <;> simp only [renameNode, there, if_true, Except.ok.injEq] at moved <;> rw [← moved]
  · rw [(renameNode_eq_ok same moved).1]
    rfl

end Targets

end FileSystem

open FileSystem Document

namespace Beside

variable {fs after : FileSystem} {path : String} {dir : Location} {name : String}

/-- The three names stay in order wherever the path still leads to its directory. -/
theorem of_leads (h : Beside fs path dir name) (leads : after.Leads path dir name) :
    Beside after path dir name where
  leads := leads
  fits := h.fits
  leadsNew := leads.sibling (by decide) h.leadsNew.ordinary
  fitsNew := h.fitsNew
  leadsBackup := leads.sibling (by decide) h.leadsBackup.ordinary
  fitsBackup := h.fitsBackup

end Beside

namespace Document

variable {fs after : FileSystem} {path : String} {data : ByteArray}

/-! ## A replacement that succeeds -/

/-- What is at a path is kept under the other name, or nothing happens. -/
theorem backedUp_eq_or (path backup : String) (fs : FileSystem) :
    backedUp path backup fs = fs ∨ fs.rename path backup = .ok (backedUp path backup fs) := by
  cases found : fs.find path with
  | error e =>
    exact .inl (backedUp_of_find_error found)
  | ok node =>
    rw [backedUp_of_find found]
    cases fs.rename path backup with
    | error e => exact .inl rfl
    | ok moved => exact .inr rfl

/-- A replacement succeeds exactly if the new file is written and gets its name. Whether there is
a backup does not matter. -/
theorem run_atomicWrite_eq_ok_iff :
    (atomicWrite path data).run fs = (.ok (), after) ↔
      ∃ written, fs.write (Path.sibling path ".tmp") data = .ok written ∧
        (backedUp path (Path.sibling path ".bak") written).rename (Path.sibling path ".tmp") path
          = .ok after := by
  rw [atomicWrite, andThen, FileProgram.run_bind]
  simp only [writeFile, FileProgram.run]
  cases fs.write (Path.sibling path ".tmp") data with
  | error e => simp [FileProgram.answer]
  | ok written =>
    simp only [FileProgram.answer, FileProgram.run_bind, Except.ok.injEq, exists_eq_left']
    rw [← backedUp, renamePath, FileProgram.run]
    cases (backedUp path (Path.sibling path ".bak") written).rename
      (Path.sibling path ".tmp") path with
    | error e => simp [FileProgram.answer, FileProgram.run]
    | ok after => simp [FileProgram.answer, FileProgram.run]

/-- If nothing can be written beside the path, nothing is changed. -/
theorem run_atomicWrite_of_error {e : OsError}
    (h : fs.write (Path.sibling path ".tmp") data = .error e) :
    (atomicWrite path data).run fs = (.error e, fs) := by
  rw [atomicWrite, andThen, FileProgram.run_bind]
  simp [writeFile, FileProgram.run, FileProgram.answer, h]

section Found

variable {found : FileSystem} {dir : Location} {name : String} {slash : Bool}
  (target : found.target path = .ok ⟨dir, some name, slash⟩) (current : fs.current = found.current)
include target current

/-- The new file is written in the directory where the path is found, now or later. -/
theorem eq_putNode_of_write {written : FileSystem}
    (h : fs.write (Path.sibling path ".tmp") data = .ok written) :
    fs.Leads (Path.bare path) dir name ∧ fs.node? (dir ++ [name ++ ".tmp"]) ≠ some .directory ∧
      written = fs.putNode (dir ++ [name ++ ".tmp"]) (.file data) := by
  obtain ⟨t, place, new, located, free, rfl⟩ := exists_of_write h
  rw [← sibling_bare_of_target target] at new
  obtain ⟨rfl, leads⟩ := (leads_bare target).of_target_sibling current (by decide) (by decide) new
  obtain rfl : dir ++ [name ++ ".tmp"] = place := Option.some.inj located
  exact ⟨leads, free, rfl⟩

/-- What is at the path is moved to the backup in that directory, if anything happens. -/
theorem backedUp_of_target :
    backedUp path (Path.sibling path ".bak") fs = fs ∨
      backedUp path (Path.sibling path ".bak") fs
          = fs.moveNode (dir ++ [name]) (dir ++ [name ++ ".bak"]) ∧
        (fs.node? (dir ++ [name ++ ".bak"]) = some .directory →
          fs.node? (dir ++ [name]) = some .directory) := by
  refine (backedUp_eq_or path _ fs).imp_right fun renamed => ?_
  obtain ⟨s, t, place, place', -, target', backup, located, located', -, -, moved⟩ :=
    exists_of_rename renamed
  cases target_unique current target target'
  -- The backup is found where the path is found, for their directory is the same.
  rw [← sibling_bare_of_target target] at backup
  obtain ⟨rfl, -⟩ := (leads_bare target).of_target_sibling current (by decide) (by decide) backup
  obtain rfl : dir ++ [name] = place := Option.some.inj located
  obtain rfl : dir ++ [name ++ ".bak"] = place' := Option.some.inj located'
  exact renameNode_eq_ok (by simpa using Beside.name_ne_backup name) moved

end Found

/-- The new file gets its name in the directory where it is, and not in place of another
directory. -/
theorem eq_moveNode_of_rename {dir : Location} {name : String} {slash : Bool}
    (target : fs.target path = .ok ⟨dir, some name, slash⟩)
    (new : fs.node? (dir ++ [name ++ ".tmp"]) = some (.file data))
    (h : fs.rename (Path.sibling path ".tmp") path = .ok after) :
    slash = false ∧ fs.node? (dir ++ [name]) ≠ some .directory ∧
      after = fs.moveNode (dir ++ [name ++ ".tmp"]) (dir ++ [name]) := by
  obtain ⟨s, t, place, place', node, source, target', located, located', there, noSlash, moved⟩ :=
    exists_of_rename h
  cases target_unique rfl target target'
  rw [← sibling_bare_of_target target] at source
  obtain ⟨rfl, -⟩ := (leads_bare target).of_target_sibling rfl (by decide) (by decide) source
  obtain rfl : dir ++ [name ++ ".tmp"] = place := Option.some.inj located
  obtain rfl : dir ++ [name] = place' := Option.some.inj located'
  -- What is moved is the new file, so the rules for files apply.
  cases there.symm.trans new
  obtain ⟨moved, kind⟩ := renameNode_eq_ok (by simp) moved
  refine ⟨noSlash rfl, fun taken => ?_, moved⟩
  cases new.symm.trans (kind taken)

/-- A replacement that succeeds is an exchange of nodes in one directory. The new file is written
there, what was at the path may be moved to the backup, and the new file is moved to the path. -/
theorem exists_beside_of_atomicWrite (h : (atomicWrite path data).run fs = (.ok (), after)) :
    ∃ dir name backed, Beside fs path dir name ∧ Beside backed path dir name ∧
      fs.node? (dir ++ [name ++ ".tmp"]) ≠ some .directory ∧
      (backed = fs.putNode (dir ++ [name ++ ".tmp"]) (.file data) ∨
        backed = (fs.putNode (dir ++ [name ++ ".tmp"]) (.file data)).moveNode (dir ++ [name])
            (dir ++ [name ++ ".bak"]) ∧
          (fs.node? (dir ++ [name ++ ".bak"]) = some .directory →
            fs.node? (dir ++ [name]) = some .directory)) ∧
      backed.node? (dir ++ [name ++ ".tmp"]) = some (.file data) ∧
      backed.node? (dir ++ [name]) ≠ some .directory ∧
      after = backed.moveNode (dir ++ [name ++ ".tmp"]) (dir ++ [name]) := by
  obtain ⟨written, wrote, renamed⟩ := run_atomicWrite_eq_ok_iff.mp h
  obtain ⟨s, ⟨dir, name?, slash⟩, place, place', -, -, target, -, located, -⟩ :=
    exists_of_rename renamed
  obtain ⟨name, rfl, -⟩ := Option.map_eq_some_iff.mp located
  -- Paths start where they did, since no step moves the working directory.
  have current : (backedUp path (Path.sibling path ".bak") written).current = written.current := by
    rcases backedUp_eq_or path (Path.sibling path ".bak") written with same | moved
    · rw [same]
    · exact current_of_rename moved
  have before : written.current = fs.current := by
    obtain ⟨-, -, -, -, -, rfl⟩ := exists_of_write wrote
    rfl
  obtain ⟨leads, free, rfl⟩ := eq_putNode_of_write target (before.symm.trans current.symm) wrote
  have steps := backedUp_of_target target current.symm
  generalize backedUp path (Path.sibling path ".bak") _ = backed at renamed target steps
  have ne := Beside.name_ne_new name
  rw [node?_putNode_child ne.symm, node?_putNode_child (Beside.new_ne_backup name)] at steps
  -- Neither step touches the new file.
  have new : backed.node? (dir ++ [name ++ ".tmp"]) = some (.file data) := by
    have wrote : (fs.putNode (dir ++ [name ++ ".tmp"]) (.file data)).node? (dir ++ [name ++ ".tmp"])
        = some (.file data) := node?_putNode_self (by simp)
    rcases steps with rfl | ⟨rfl, -⟩
    · exact wrote
    · exact (node?_moveNode_child ne (Beside.new_ne_backup name).symm).trans wrote
  -- The last step says what the path looks like, and so the three names are in order.
  obtain ⟨rfl, taken, moved⟩ := eq_moveNode_of_rename target new renamed
  obtain ⟨same, fits⟩ := bare_of_target target
  have beside := Beside.of_write (same ▸ leads) fits wrote
  exact ⟨dir, name, backed, beside, beside.of_leads (same ▸ leads_bare target), free, steps, new,
    taken, moved⟩

/-- The path leads where it led, and the file systems agree elsewhere. What changed were no
directories, unless there was one at the path. -/
theorem exists_agreesOff_of_atomicWrite (h : (atomicWrite path data).run fs = (.ok (), after)) :
    ∃ dir name hidden, Beside fs path dir name ∧ Beside after path dir name ∧
      (∀ loc ∈ hidden, ∃ ending ∈ ["", ".tmp", ".bak"], loc = dir ++ [name ++ ending]) ∧
      AgreesOff hidden fs after ∧
      (fs.find path ≠ .ok .directory → ∀ loc ∈ hidden, fs.node? loc ≠ some .directory) := by
  obtain ⟨dir, name, backed, before, beside, free, steps, new, taken, rfl⟩ :=
    exists_beside_of_atomicWrite h
  have source : backed.node? (dir ++ [name ++ ".tmp"]) ≠ some .directory := by simp [new]
  have later := beside.moveNode source taken
  have wrote := agreesOff_putNode fs (dir ++ [name ++ ".tmp"]) (.file data)
  have named := agreesOff_moveNode backed (dir ++ [name ++ ".tmp"]) (dir ++ [name])
  have noDirectory (clear : fs.find path ≠ .ok .directory) :
      fs.node? (dir ++ [name]) ≠ some .directory :=
    fun there => clear ((before.leads.find_eq_ok_iff before.fits).mpr there)
  -- Without a backup two places have changed, and with one three.
  rcases steps with rfl | ⟨rfl, backup⟩
  · refine ⟨dir, name, [dir ++ [name], dir ++ [name ++ ".tmp"]], before, later, by simp, ?_, ?_⟩
    · exact (wrote.mono (by simp)).trans (named.mono (by simp))
    · intro clear
      simpa [free] using noDirectory clear
  · have kept := agreesOff_moveNode (fs.putNode (dir ++ [name ++ ".tmp"]) (.file data))
      (dir ++ [name]) (dir ++ [name ++ ".bak"])
    refine ⟨dir, name, [dir ++ [name], dir ++ [name ++ ".tmp"], dir ++ [name ++ ".bak"]], before,
      later, by simp, ?_, ?_⟩
    · exact ((wrote.mono (by simp)).trans (kept.mono (by simp))).trans (named.mono (by simp))
    · intro clear
      have file := noDirectory clear
      simpa [free, file] using fun there => file (backup there)

/-- After a replacement that succeeds the new file is at the path. -/
theorem read_of_atomicWrite (h : (atomicWrite path data).run fs = (.ok (), after)) :
    after.read path = .ok data := by
  obtain ⟨dir, name, backed, -, beside, -, -, new, taken, rfl⟩ := exists_beside_of_atomicWrite h
  have source : backed.node? (dir ++ [name ++ ".tmp"]) ≠ some .directory := by simp [new]
  refine (beside.leads.moveNode source taken).read_eq_ok beside.fits ?_
  exact (node?_moveNode_child_target (Beside.name_ne_new name).symm).trans new

/-- A file is replaced whenever the new one can be written beside it. -/
theorem exists_run_atomicWrite_of_file {dir : Location} {name : String} {old : ByteArray}
    {written : FileSystem} (leads : fs.Leads path dir name) (fits : Fits path name)
    (node : fs.node? (dir ++ [name]) = some (.file old))
    (wrote : fs.write (Path.sibling path ".tmp") data = .ok written) :
    ∃ after, (atomicWrite path data).run fs = (.ok (), after) := by
  obtain ⟨beside, former, new, backup⟩ := (Beside.of_write leads fits wrote).write wrote
  rw [node] at former
  have ne := (Beside.name_ne_new name).symm
  have source : written.node? (dir ++ [name]) ≠ some .directory := by simp [former]
  suffices renamed : ∃ after, (backedUp path (Path.sibling path ".bak") written).rename
      (Path.sibling path ".tmp") path = .ok after by
    obtain ⟨after, renamed⟩ := renamed
    exact ⟨after, run_atomicWrite_eq_ok_iff.mpr ⟨written, wrote, renamed⟩⟩
  -- A directory in the backup's place keeps the former file where it is, and then it is replaced.
  by_cases taken : written.node? (dir ++ [name ++ ".bak"]) = some .directory
  · rw [beside.backedUp_of_directory former taken]
    exact ⟨_, beside.leadsNew.rename_eq_move beside.leads beside.fitsNew fits ne new source⟩
  · rw [beside.backedUp_eq_move former taken]
    have later := beside.moveNode source taken
    have kept := (node?_moveNode_child (Beside.name_ne_new name)
      (Beside.new_ne_backup name).symm).trans new
    refine ⟨_, later.leadsNew.rename_eq_move later.leads later.fitsNew fits ne kept ?_⟩
    simp [node?_moveNode_child_source (Beside.name_ne_backup name)]

/-! ## Saving a script -/

/-- Two steps succeed exactly if the first one does, and the second one after it. -/
theorem run_andThen_eq_ok_iff {step next : FileProgram (Except OsError Unit)} :
    (andThen step next).run fs = (.ok (), after) ↔
      ∃ middle, step.run fs = (.ok (), middle) ∧ next.run middle = (.ok (), after) := by
  rw [andThen, FileProgram.run_bind]
  rcases step.run fs with ⟨_ | _, middle⟩ <;> simp

/-- A script that is saved is at its path. -/
theorem read_of_save {text : String} (h : (save path text).run fs = (.ok (), after)) :
    after.read path = .ok text.toUTF8 := by
  unfold save at h
  split at h
  · obtain ⟨middle, -, written⟩ := run_andThen_eq_ok_iff.mp h
    exact read_of_atomicWrite written
  · exact read_of_atomicWrite h

/-- The bytes of a text are those of no other text. -/
theorem fromUTF8?_toUTF8 (text : String) : String.fromUTF8? text.toUTF8 = some text := by
  simp [String.fromUTF8?, String.fromUTF8, String.toUTF8_eq_toByteArray, text.isValidUTF8]

/-- A script that is saved can be loaded, whatever its text. -/
theorem load_of_save {text : String} (h : (save path text).run fs = (.ok (), after)) :
    (load path).run after = (.ok (some text), after) := by
  rw [load, FileProgram.run, read_of_save h]
  simp only [fromUTF8?_toUTF8, FileProgram.run]

end Document

end Linework
