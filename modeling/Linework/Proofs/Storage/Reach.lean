import Linework.Proofs.Storage.Nodes
import Linework.Proofs.Storage.Spelling

/-!
# `Linework.Proofs.Storage.Reach`: a name in a directory

A path with an ordinary last name stands for that name in a directory (`Leads`), whether or not
there is anything of the name, and its siblings stand for other names in the same directory
(`Leads.sibling`). If the system takes the path (`Fits`), every operation on it is one on the
location below the directory.

A path that leads to a file is such a path, or else ends by going up
(`exists_leads_of_read`); then nothing can be put beside the file (`target_sibling_up`).
-/

set_option autoImplicit false

namespace Linework.FileSystem

/-- The path stands for a name in a directory. -/
structure Leads (fs : FileSystem) (path : String) (dir : Location) (name : String) : Prop where
  ordinary : Path.Ordinary name
  directory : fs.node? dir = some .directory
  spelled : ∃ above, Path.names path = above ++ [name] ∧ fs.walk (fs.startOf path) above = .ok dir

/-- Where a path begins depends on the current directory alone. -/
theorem startOf_congr {fs after : FileSystem} (current : after.current = fs.current)
    (path : String) : after.startOf path = fs.startOf path := by
  rw [startOf, startOf, current]

/-- The system takes a path with this last name. -/
structure Fits (path name : String) : Prop where
  admissible : admissible path = .ok ()
  short : name.utf8ByteSize ≤ nameLimit

/-- The system takes every path that is not empty, not too long and without a null character. -/
theorem admissible_iff (path : String) :
    admissible path = .ok () ↔
      '\x00' ∉ path.toList ∧ path ≠ "" ∧ path.utf8ByteSize ≤ pathLimit := by
  unfold admissible
  -- The three faults are looked for in turn.
  split_ifs with nul empty long
  · simp_all
  · simp [empty]
  · simp [Nat.not_le.mpr long]
  · simp_all

/-- A path has a location if the system takes it and its names lead there. -/
theorem locate_eq_ok_iff {fs : FileSystem} {path : String} {loc : Location} :
    fs.locate path = .ok loc ↔
      admissible path = .ok () ∧ fs.walk (fs.startOf path) (Path.names path) = .ok loc := by
  unfold locate
  cases admissible path <;> simp

/-- A file is read where its path has a location and there is a file. -/
theorem read_eq_ok_iff {fs : FileSystem} {path : String} {data : ByteArray} :
    fs.read path = .ok data ↔
      ∃ loc, fs.locate path = .ok loc ∧ fs.node? loc = some (.file data) := by
  unfold read find
  cases fs.locate path with
  | error e => simp
  | ok loc =>
    simp only [Except.ok.injEq, exists_eq_left']
    cases fs.node? loc with
    | none => simp
    | some node => cases node <;> simp

section Operations

variable {fs : FileSystem} {path : String} {dir : Location} {name : String}

/-- The last name of a path, with those before it. -/
theorem splitLast_append {above : List String} (ne : name ≠ "") :
    splitLast (above ++ [name]) = (above, some name) := by
  simp [splitLast, ne]

/-- An ordinary name that is not too long leads into the directory. -/
theorem enter_ordinary (ordinary : Path.Ordinary name) (short : name.utf8ByteSize ≤ nameLimit)
    (loc : Location) : enter loc name = .ok (loc ++ [name]) := by
  simp [enter, ordinary.not_idle, ordinary.not_up, Nat.not_lt.mpr short]

namespace Leads

/-- A path that the system takes stands for its name in the directory. -/
theorem target_of_fits (h : fs.Leads path dir name) (fits : Fits path name) :
    fs.target path = .ok ⟨dir, some name, false⟩ := by
  obtain ⟨above, spelled, reached⟩ := h.spelled
  have slash := Path.endsInSlash_of_names spelled h.ordinary.ne_empty
  simp [target, fits.admissible, spelled, splitLast_append h.ordinary.ne_empty, reached,
    h.directory, h.ordinary.not_idle, h.ordinary.not_up, Nat.not_lt.mpr fits.short, slash]

/-- If it stands for anything, the system takes it. -/
theorem fits_of_target (h : fs.Leads path dir name) {t : Target} (ok : fs.target path = .ok t) :
    Fits path name := by
  obtain ⟨above, spelled, reached⟩ := h.spelled
  unfold target at ok
  split at ok
  · cases ok
  · rename_i admissible
    -- A name that is too long would have been found out.
    refine ⟨admissible, Nat.not_lt.mp fun long => ?_⟩
    simp [spelled, splitLast_append h.ordinary.ne_empty, reached, h.directory,
      h.ordinary.not_idle, h.ordinary.not_up, long] at ok

/-- A path stands for one target at most. -/
theorem eq_of_target (h : fs.Leads path dir name) {t : Target} (ok : fs.target path = .ok t) :
    t = ⟨dir, some name, false⟩ := by
  rw [h.target_of_fits (h.fits_of_target ok)] at ok
  exact (Except.ok.inj ok).symm

/-- The location of the path is the name in the directory. -/
theorem locate (h : fs.Leads path dir name) (fits : Fits path name) :
    fs.locate path = .ok (dir ++ [name]) := by
  obtain ⟨above, spelled, reached⟩ := h.spelled
  have last : fs.walk dir [name] = .ok (dir ++ [name]) :=
    walk_cons_iff.mpr ⟨h.directory, _, enter_ordinary h.ordinary fits.short dir, rfl⟩
  simp only [FileSystem.locate, fits.admissible, spelled]
  exact walk_append_iff.mpr ⟨dir, reached, last⟩

/-- What is found at the path is what is at that location. -/
theorem find_eq_ok_iff (h : fs.Leads path dir name) (fits : Fits path name) {node : Node} :
    fs.find path = .ok node ↔ fs.node? (dir ++ [name]) = some node := by
  rw [find, h.locate fits]
  simp only
  cases fs.node? (dir ++ [name]) <;> simp

/-- A file at that location is read. -/
theorem read_eq_ok (h : fs.Leads path dir name) (fits : Fits path name) {data : ByteArray}
    (node : fs.node? (dir ++ [name]) = some (.file data)) : fs.read path = .ok data :=
  read_eq_ok_iff.mpr ⟨_, h.locate fits, node⟩

/-- And if something is read, it is the file there. -/
theorem node?_of_read (h : fs.Leads path dir name) (fits : Fits path name) {data : ByteArray}
    (held : fs.read path = .ok data) : fs.node? (dir ++ [name]) = some (.file data) := by
  obtain ⟨loc, located, node⟩ := read_eq_ok_iff.mp held
  rw [h.locate fits] at located
  cases located
  exact node

/-- Where there is nothing, nothing is found. -/
theorem read_eq_notFound (h : fs.Leads path dir name) (fits : Fits path name)
    (node : fs.node? (dir ++ [name]) = none) : fs.read path = .error .notFound := by
  simp [read, find, h.locate fits, node]

/-- A file can be written unless there is a directory, and it is put there. -/
theorem write_eq_ok_iff (h : fs.Leads path dir name) {data : ByteArray} {after : FileSystem} :
    fs.write path data = .ok after ↔ Fits path name ∧
      fs.node? (dir ++ [name]) ≠ some .directory ∧
      after = fs.putNode (dir ++ [name]) (.file data) := by
  constructor
  · intro written
    -- That the target was found tells that the system takes the path.
    have fits : Fits path name := by
      unfold write at written
      split at written
      · cases written
      · exact h.fits_of_target ‹_›
    simp only [write, h.target_of_fits fits, Target.location?, Option.map_some,
      Bool.false_eq_true, if_false] at written
    refine ⟨fits, ?_⟩
    split at written
    · cases written
    · rename_i free
      cases written
      exact ⟨free, rfl⟩
  · rintro ⟨fits, free, rfl⟩
    simp only [write, h.target_of_fits fits, Target.location?, Option.map_some,
      Bool.false_eq_true, if_false]

end Leads

/-! ## Two names in one directory -/

variable {path' name' : String} {data : ByteArray}

/-- Neither of two names in a directory is below the other. -/
theorem not_prefix_of_ne (ne : name ≠ name') : ¬ dir ++ [name] <+: dir ++ [name'] := by
  simp [List.prefix_append_right_inj, ne]

/-- What happens to the children of a directory does not happen to the directory. -/
theorem not_under_of_children (dir : Location) (children : List String) :
    ¬ Under (children.map fun child => dir ++ [child]) dir := by
  rintro ⟨loc, among, below⟩
  obtain ⟨child, -, rfl⟩ := List.mem_map.mp among
  exact absurd below.length_le (by simp)

/-- A node that is put beside another leaves it alone. -/
theorem node?_putNode_child {child other : String} (ne : child ≠ other) (node : Node) :
    (fs.putNode (dir ++ [child]) node).node? (dir ++ [other]) = fs.node? (dir ++ [other]) :=
  node?_putNode_of_ne (by simpa using ne.symm)

/-- A move between two names leaves the other names alone. -/
theorem node?_moveNode_child {child other third : String} (ne : child ≠ third)
    (ne' : other ≠ third) :
    (fs.moveNode (dir ++ [child]) (dir ++ [other])).node? (dir ++ [third])
      = fs.node? (dir ++ [third]) :=
  node?_moveNode_of_apart (not_prefix_of_ne ne) (not_prefix_of_ne ne')

/-- It leaves nothing at the old name. -/
theorem node?_moveNode_child_source {child other : String} (ne : child ≠ other) :
    (fs.moveNode (dir ++ [child]) (dir ++ [other])).node? (dir ++ [child]) = none :=
  node?_moveNode_source (by simp) (not_prefix_of_ne ne.symm)

/-- What was there is at the new name. -/
theorem node?_moveNode_child_target {child other : String} (ne : child ≠ other) :
    (fs.moveNode (dir ++ [child]) (dir ++ [other])).node? (dir ++ [other])
      = fs.node? (dir ++ [child]) :=
  node?_moveNode_target (by simp) (by simp) (by simpa using ne)

/-- And neither of them is below the other as the system tells it. -/
theorem isBelow_of_ne (ne : name ≠ name') : isBelow (dir ++ [name']) (dir ++ [name]) = false := by
  have apart : (dir ++ [name]).isPrefixOf (dir ++ [name']) = false :=
    Bool.eq_false_iff.mpr fun h => not_prefix_of_ne ne (List.isPrefixOf_iff_prefix.mp h)
  rw [isBelow, apart, Bool.and_false]

namespace Leads

/-- A file is renamed by moving it from the one location to the other, if it can be. -/
theorem rename_of_file (h : fs.Leads path dir name) (h' : fs.Leads path' dir name')
    (fits : Fits path name) (fits' : Fits path' name') (ne : name ≠ name')
    (node : fs.node? (dir ++ [name]) = some (.file data)) :
    fs.rename path path' = fs.renameNode (dir ++ [name]) (dir ++ [name']) := by
  simp [rename, h.target_of_fits fits, h'.target_of_fits fits', Target.location?, node,
    isBelow_of_ne ne, isBelow_of_ne ne.symm]

/-- A file cannot take the place of a directory. -/
theorem rename_of_directory (h : fs.Leads path dir name) (h' : fs.Leads path' dir name')
    (fits : Fits path name) (fits' : Fits path' name') (ne : name ≠ name')
    (node : fs.node? (dir ++ [name]) = some (.file data))
    (taken : fs.node? (dir ++ [name']) = some .directory) :
    fs.rename path path' = .error .isDirectory := by
  rw [h.rename_of_file h' fits fits' ne node, renameNode, node, taken]

/-- A file takes the place of another one. -/
theorem rename_eq_move (h : fs.Leads path dir name) (h' : fs.Leads path' dir name')
    (fits : Fits path name) (fits' : Fits path' name') (ne : name ≠ name')
    (node : fs.node? (dir ++ [name]) = some (.file data))
    (free : fs.node? (dir ++ [name']) ≠ some .directory) :
    fs.rename path path' = .ok (fs.moveNode (dir ++ [name]) (dir ++ [name'])) := by
  have other : dir ++ [name] ≠ dir ++ [name'] := by simpa using ne
  rw [h.rename_of_file h' fits fits' ne node, renameNode, node]
  -- The place is empty or holds another file.
  cases there : fs.node? (dir ++ [name']) with
  | none => simp [other]
  | some former =>
    cases former with
    | directory => exact absurd there free
    | file bytes => simp [other]

/-- A path keeps its meaning while files change beside it. -/
theorem of_agreesOff {hidden : List Location} {after : FileSystem} (h : fs.Leads path dir name)
    (agrees : AgreesOff hidden fs after) (closed : ∀ loc ∈ hidden, fs.node? loc ≠ some .directory)
    (visible : ¬ Under hidden dir) : after.Leads path dir name where
  ordinary := h.ordinary
  directory := (agrees.node dir visible).trans h.directory
  spelled := by
    obtain ⟨above, spelled, reached⟩ := h.spelled
    have start := startOf_congr agrees.current path
    exact ⟨above, spelled, start ▸ walk_of_agreesOff agrees closed reached visible⟩

/-- A path keeps its meaning when a file is put beside it, or in its place. -/
theorem putNode (h : fs.Leads path dir name) {child : String} {node : Node}
    (free : fs.node? (dir ++ [child]) ≠ some .directory) :
    (fs.putNode (dir ++ [child]) node).Leads path dir name := by
  refine h.of_agreesOff (agreesOff_putNode fs _ node) (by simpa using free) ?_
  exact not_under_of_children dir [child]

/-- A path keeps its meaning when a file is moved beside it, out of its place, or into it. -/
theorem moveNode (h : fs.Leads path dir name) {child other : String}
    (source : fs.node? (dir ++ [child]) ≠ some .directory)
    (target : fs.node? (dir ++ [other]) ≠ some .directory) :
    (fs.moveNode (dir ++ [child]) (dir ++ [other])).Leads path dir name := by
  refine h.of_agreesOff (agreesOff_moveNode fs _ _) (by simpa using ⟨source, target⟩) ?_
  exact not_under_of_children dir [child, other]

end Leads

end Operations

/-! ## Siblings -/

section Siblings

variable {fs : FileSystem} {path : String} {dir : Location} {name : String}

/-- Idle names lead nowhere. -/
theorem walk_idle {idle : List String} (h : ∀ n ∈ idle, Path.isIdle n = true) {loc stop : Location}
    (reached : fs.walk loc idle = .ok stop) : stop = loc := by
  induction idle generalizing loc with
  | nil =>
    cases reached
    rfl
  | cons n rest ih =>
    obtain ⟨here, others⟩ := List.forall_mem_cons.mp h
    obtain ⟨-, next, entered, onward⟩ := walk_cons_iff.mp reached
    rw [enter, if_pos here] at entered
    cases entered
    exact ih others onward

/-- A sibling is followed from where its path is. -/
theorem startOf_sibling {above : List String} (spelled : Path.names path = above ++ [name])
    (ordinary : Path.Ordinary name) {ending : String} (noSlash : '/' ∉ ending.toList) :
    fs.startOf (Path.sibling path ending) = fs.startOf path := by
  rw [startOf, startOf, Path.isAbsolute_sibling spelled ordinary noSlash]

/-- Siblings stand for names in the same directory. -/
theorem Leads.sibling (h : fs.Leads path dir name) {ending : String} (noSlash : '/' ∉ ending.toList)
    (ordinary : Path.Ordinary (name ++ ending)) :
    fs.Leads (Path.sibling path ending) dir (name ++ ending) where
  ordinary := ordinary
  directory := h.directory
  spelled := by
    obtain ⟨above, spelled, reached⟩ := h.spelled
    refine ⟨Path.keptAbove above, Path.names_sibling spelled h.ordinary noSlash, ?_⟩
    have start : fs.startOf (Path.sibling path ending) = fs.startOf path :=
      startOf_sibling spelled h.ordinary noSlash
    -- The idle names that the sibling leaves out lead nowhere else.
    obtain ⟨idle, split, skipped⟩ := Path.exists_eq_keptAbove_append above
    rw [split] at reached
    obtain ⟨middle, kept, rest⟩ := walk_append_iff.mp reached
    rw [start, kept, walk_idle skipped rest]

/-- If the system takes a sibling, it takes one whose ending is as long. -/
theorem Leads.fits_sibling (h : fs.Leads path dir name) {ending ending' : String}
    (noSlash : '/' ∉ ending.toList) (noSlash' : '/' ∉ ending'.toList) (noNul : '\x00' ∉ ending'.toList)
    (size : ending'.utf8ByteSize = ending.utf8ByteSize)
    (fits : Fits (Path.sibling path ending) (name ++ ending)) :
    Fits (Path.sibling path ending') (name ++ ending') := by
  obtain ⟨above, spelled, -⟩ := h.spelled
  obtain ⟨taken, short⟩ := fits
  rw [Path.sibling_eq_append spelled h.ordinary noSlash, admissible_iff] at taken
  obtain ⟨clean, nonempty, fit⟩ := taken
  rw [String.utf8ByteSize_append] at short fit
  constructor
  · rw [Path.sibling_eq_append spelled h.ordinary noSlash', admissible_iff]
    simp only [String.toList_append, List.mem_append, not_or] at clean ⊢
    refine ⟨⟨clean.1, noNul⟩, ?_, ?_⟩
    · rw [ne_eq, ← String.utf8ByteSize_eq_zero_iff, String.utf8ByteSize_append] at nonempty ⊢
      rwa [size]
    · rwa [String.utf8ByteSize_append, size]
  · rwa [String.utf8ByteSize_append, size]

/-- A path that leads to a file stands for a name in a directory, unless it ends by going up. -/
theorem exists_leads_of_read {data : ByteArray} (h : fs.read path = .ok data) :
    (∃ dir name, fs.Leads path dir name ∧ Fits path name ∧
      fs.node? (dir ++ [name]) = some (.file data)) ∨
    ∃ above loc, Path.names path = above ++ [".."] ∧
      fs.walk (fs.startOf path) (Path.names path) = .ok loc ∧
      fs.node? loc = some (.file data) := by
  obtain ⟨loc, located, node⟩ := read_eq_ok_iff.mp h
  obtain ⟨taken, reached⟩ := locate_eq_ok_iff.mp located
  obtain ⟨above, name, spelled⟩ :=
    List.eq_nil_or_concat (Path.names path) |>.resolve_left (Path.names_ne_nil path)
  rw [List.concat_eq_append] at spelled
  have follow := reached
  rw [spelled] at follow
  obtain ⟨dir, found, last⟩ := walk_append_iff.mp follow
  obtain ⟨directory, next, entered, stop⟩ := walk_cons_iff.mp last
  cases stop
  unfold enter at entered
  split_ifs at entered with idle up
  · -- An idle name at the end leads to a directory.
    cases entered
    rw [directory] at node
    cases node
  · exact .inr ⟨above, loc, up ▸ spelled, reached, node⟩
  · -- Any other name is looked up, and the file is below the directory.
    rename_i long
    cases entered
    have ordinary : Path.Ordinary name := ⟨by simpa using idle, up⟩
    exact .inl ⟨dir, name, ⟨ordinary, directory, above, spelled, found⟩,
      ⟨taken, Nat.not_lt.mp long⟩, node⟩

/-- Nothing can be put beside a file by a path that ends by going up to it. -/
theorem target_sibling_up {above : List String} (up : Path.names path = above ++ [".."])
    {loc : Location} (reached : fs.walk (fs.startOf path) (Path.names path) = .ok loc)
    {data : ByteArray} (node : fs.node? loc = some (.file data)) {ending : String}
    (noSlash : '/' ∉ ending.toList) (ne : ending ≠ "") (t : Target) :
    fs.target (Path.sibling path ending) ≠ .ok t := by
  have start : fs.startOf (Path.sibling path ending) = fs.startOf path := by
    rw [startOf, startOf, Path.isAbsolute_sibling_up up noSlash]
  intro found
  unfold target at found
  split at found
  · cases found
  · -- The file would have to be a directory to have the ending looked up in it.
    simp [Path.names_sibling_up up noSlash, splitLast_append ne, start, reached, node] at found

end Siblings

end Linework.FileSystem
