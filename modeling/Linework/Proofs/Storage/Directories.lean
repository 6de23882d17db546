import Linework.Proofs.Storage.Saving
import Linework.Storage.Path

/-!
# `Linework.Proofs.Storage.Directories`: the files of one directory

Several files are kept in one directory, each at a path that is the directory's with a name joined
to it. Such paths differ in their last name alone (`names_join`), so if one of them leads into a
directory, all do (`Opens`, `Opens.leads`, `opens_of_leads`).

Making a directory that is there changes nothing (`run_createDirectories`), and neither does making
the directory of a path that leads into one (`run_createDirectories_parent`).

In a file system that is `Rooted` every node lies in a directory. Then a place that was never a
directory has nothing below it (`Rooted.visible`), and what happens there goes unnoticed in every
directory.
-/

set_option autoImplicit false

namespace Linework

/-! ## Joined paths -/

namespace Path

/-- The names of a directory as they stand before the name of a file in it. -/
def within (dir : String) : List String :=
  if dir = "" then [] else if endsInSlash dir then (names dir).dropLast else names dir

/-- A path that ends in a slash, without it. -/
theorem exists_eq_append_slash {dir : String} (h : endsInSlash dir = true) :
    ∃ base, dir = base ++ "/" := by
  have last : dir.toList.getLast? = some '/' := by simpa [endsInSlash] using h
  obtain ⟨cs, hcs⟩ := List.getLast?_eq_some_iff.mp last
  exact ⟨String.ofList cs, String.toList_inj.mp (by simp [hcs])⟩

/-- A slash at the end adds an empty name. -/
theorem names_append_slash (base : String) : names (base ++ "/") = names base ++ [""] := by
  have spelled := names_append base ""
  rwa [String.append_empty] at spelled

/-- The names before a file's are those of its directory, idle ones at the end aside. -/
theorem exists_names_eq_within (dir : String) :
    ∃ idle, names dir = within dir ++ idle ∧ ∀ n ∈ idle, isIdle n = true := by
  unfold within
  split
  · rename_i empty
    subst empty
    exact ⟨[""], rfl, by decide⟩
  split
  · rename_i slash
    obtain ⟨base, rfl⟩ := exists_eq_append_slash slash
    exact ⟨[""], by rw [names_append_slash, List.dropLast_concat], by decide⟩
  · exact ⟨[], by simp, by simp⟩

/-- What is put after a path does not change where it begins. -/
theorem isAbsolute_append {path : String} (ne : path ≠ "") (rest : String) :
    isAbsolute (path ++ rest) = isAbsolute path := by
  have chars : path.toList ≠ [] := by simpa using ne
  obtain ⟨c, cs, first⟩ := List.exists_cons_of_ne_nil chars
  simp [isAbsolute, Text.hasHead, first, List.isPrefixOf]

section Join

variable {dir name : String} (noSlash : '/' ∉ name.toList)
include noSlash

/-- The name of a file follows the names of its directory. -/
theorem names_join : names (join dir name) = within dir ++ [name] := by
  have single := names_of_no_slash noSlash
  rw [join, isAbsolute_of_no_slash noSlash, within]
  -- The directory's path is empty, or ends in a slash, or gets one.
  by_cases empty : dir = ""
  · simp [empty, single]
  · cases slash : endsInSlash dir with
    | true =>
      obtain ⟨base, rfl⟩ := exists_eq_append_slash slash
      simp [empty, names_append_slash, names_append, single]
    | false => simp [empty, names_append, single]

/-- A joined path begins where its directory's does. -/
theorem isAbsolute_join : isAbsolute (join dir name) = isAbsolute dir := by
  rw [join, isAbsolute_of_no_slash noSlash]
  by_cases empty : dir = ""
  · subst empty
    have none : isAbsolute "" = false := rfl
    simpa [none] using isAbsolute_of_no_slash noSlash
  · cases slash : endsInSlash dir <;> simp [empty, isAbsolute_append empty, String.append_assoc]

end Join

/-- The last name of a path goes on with what is put after the path. -/
theorem names_append_of_no_slash {path name ending : String} {above : List String}
    (h : names path = above ++ [name]) (noSlash : '/' ∉ ending.toList) :
    names (path ++ ending) = above ++ [name ++ ending] := by
  have inside : '/' ∉ name.toList := no_slash_of_names h
  have longer : '/' ∉ (name ++ ending).toList := by simp [inside, noSlash]
  -- A single name is the whole path, and otherwise it comes after the last slash.
  rcases above with _ | ⟨first, rest⟩
  · obtain rfl : path = name := names_injective (h.trans (names_of_no_slash inside).symm)
    exact names_of_no_slash longer
  · have apart : ∀ n ∈ first :: rest, '/' ∉ n.toList := fun n among =>
      Text.not_mem_of_mem_pieces (s := path) (h ▸ List.mem_append_left _ among : n ∈ names path)
    have spelled := names_intercalate (List.cons_ne_nil first rest) apart
    obtain rfl : path = "/".intercalate (first :: rest) ++ "/" ++ name := by
      refine names_injective (h.trans ?_)
      rw [names_append, spelled, names_of_no_slash inside]
    rw [String.append_assoc, names_append, spelled, names_of_no_slash longer]

/-- Names that are spelled can be had back, but for idle ones at the end. -/
theorem exists_names_spell {first : String} {rest : List String}
    (noSlash : ∀ n ∈ first :: rest, '/' ∉ n.toList) :
    (∃ idle, names (spell (first :: rest)) = first :: rest ++ idle ∧ ∀ n ∈ idle, isIdle n = true) ∧
      (isAbsolute (spell (first :: rest)) = true ↔ first = "") := by
  by_cases root : first :: rest = [""]
  · -- The root has an empty name on either side of its slash.
    cases root
    exact ⟨⟨[""], rfl, by decide⟩, iff_of_true rfl rfl⟩
  · have spelled : names (spell (first :: rest)) = first :: rest := by
      rw [spell, if_neg root, names_intercalate (List.cons_ne_nil first rest) noSlash]
    refine ⟨⟨[], by rw [spelled, List.append_nil], by simp⟩, ?_⟩
    rw [isAbsolute_iff, spelled]
    constructor
    · rintro ⟨others, -, same⟩
      exact (List.cons.inj same).1
    · rintro rfl
      exact ⟨rest, fun empty => root (by rw [empty]), rfl⟩

end Path

/-! ## Paths into one directory -/

namespace FileSystem

/-- The files at paths joined to a directory's are looked up in the directory at a location. -/
structure Opens (fs : FileSystem) (dir : String) (loc : Location) : Prop where
  directory : fs.node? loc = some .directory
  reached : fs.walk (fs.startOf dir) (Path.within dir) = .ok loc

section Opens

variable {fs : FileSystem} {dir name : String} {loc : Location}

/-- So it is followed from the same place. -/
theorem startOf_join (noSlash : '/' ∉ name.toList) :
    fs.startOf (Path.join dir name) = fs.startOf dir := by
  rw [startOf, startOf, Path.isAbsolute_join noSlash]

/-- A path joined to a directory's leads to the name in it. -/
theorem Opens.leads (h : fs.Opens dir loc) (noSlash : '/' ∉ name.toList)
    (ordinary : Path.Ordinary name) : fs.Leads (Path.join dir name) loc name where
  ordinary := ordinary
  directory := h.directory
  spelled := ⟨Path.within dir, Path.names_join noSlash, by rw [startOf_join noSlash, h.reached]⟩

/-- And if it leads anywhere, it is into that directory. -/
theorem opens_of_leads {other : String} (h : fs.Leads (Path.join dir name) loc other)
    (noSlash : '/' ∉ name.toList) : fs.Opens dir loc ∧ other = name := by
  obtain ⟨above, spelled, reached⟩ := h.spelled
  obtain ⟨rfl, same⟩ := List.append_inj' ((Path.names_join noSlash).symm.trans spelled) rfl
  rw [startOf_join noSlash] at reached
  exact ⟨⟨h.directory, reached⟩, by simpa using same.symm⟩

/-- The directory itself is reached as its files are. -/
theorem Opens.walk_names (h : fs.Opens dir loc) :
    fs.walk (fs.startOf dir) (Path.names dir) = .ok loc := by
  obtain ⟨idle, split, skipped⟩ := Path.exists_names_eq_within dir
  rw [split]
  exact walk_append_iff.mpr ⟨loc, h.reached, walk_idle_of_directory h.directory skipped⟩

end Opens

end FileSystem

/-- A path is taken with a name joined to it only if it is taken without. -/
theorem FileSystem.admissible_of_join {dir name : String} (noSlash : '/' ∉ name.toList)
    (h : admissible (Path.join dir name) = .ok ()) : dir = "" ∨ admissible dir = .ok () := by
  refine or_iff_not_imp_left.mpr fun ne => ?_
  obtain ⟨rest, joined⟩ : ∃ rest, Path.join dir name = dir ++ rest := by
    rw [Path.join, Path.isAbsolute_of_no_slash noSlash]
    cases Path.endsInSlash dir <;> simp [ne, String.append_assoc]
  rw [joined, admissible_iff] at h
  obtain ⟨clean, -, fit⟩ := h
  rw [String.toList_append, List.mem_append, not_or] at clean
  rw [String.utf8ByteSize_append] at fit
  exact (admissible_iff dir).mpr ⟨clean.1, ne, by omega⟩

/-! ## Making a directory -/

open FileSystem

namespace Document

variable {fs : FileSystem} {path : String} {loc : Location}

/-- Nothing is made where a path leads to a directory. -/
theorem makeDirectory_ne_ok (reached : fs.walk (fs.startOf path) (Path.names path) = .ok loc)
    (directory : fs.node? loc = some .directory) (after : FileSystem) :
    fs.makeDirectory path ≠ .ok after := by
  intro made
  unfold makeDirectory at made
  split at made
  · cases made
  rename_i t found
  split at made
  · cases made
  rename_i place located
  split at made
  · cases made
  rename_i free
  obtain ⟨dir, name?, slash⟩ := t
  obtain ⟨name, rfl, rfl⟩ := Option.map_eq_some_iff.mp located
  obtain ⟨⟨-, short⟩, ordinary, -, -, above, blanks, spelled, blank, found⟩ :=
    exists_names_of_target found
  -- The path leads to the place that is free.
  rw [spelled] at reached
  obtain ⟨middle, first, last⟩ := walk_append_iff.mp reached
  cases walk_unique found first
  obtain ⟨-, next, entered, rest⟩ := walk_cons_iff.mp last
  rw [enter_ordinary ordinary short] at entered
  cases entered
  -- Empty names behind the last one do not lead on from there.
  have idle : ∀ b ∈ blanks, Path.isIdle b = true := by
    intro b among
    rw [blank b among]
    rfl
  rw [walk_idle idle rest, free] at directory
  cases directory

/-- To ask for a directory that is there is no fault and changes nothing. -/
theorem run_ensureDirectory (taken : admissible path = .ok ())
    (reached : fs.walk (fs.startOf path) (Path.names path) = .ok loc)
    (directory : fs.node? loc = some .directory) :
    (ensureDirectory path).run fs = (.ok (), fs) := by
  have found : fs.find path = .ok .directory := by
    rw [find, locate_eq_ok_iff.mpr ⟨taken, reached⟩]
    simp only [directory]
  simp only [ensureDirectory, FileProgram.run]
  cases made : fs.makeDirectory path with
  | ok after => exact absurd made (makeDirectory_ne_ok reached directory after)
  | error e => simp [FileProgram.answer, FileProgram.isDirectory, FileProgram.run, found,
      Except.map, Node.isDirectory]

/-- A path that the system does not take leads nowhere, and so nothing is changed. -/
theorem run_ensureDirectory_of_error {e : OsError} (taken : admissible path = .error e) :
    (ensureDirectory path).run fs = (.error e, fs) := by
  have made : fs.makeDirectory path = .error e := by simp [makeDirectory, target, taken]
  have found : fs.find path = .error e := by simp [find, locate, taken]
  simp [ensureDirectory, FileProgram.run, made, FileProgram.answer, FileProgram.isDirectory, found,
    Except.map]

/-- To make a directory that is there is no fault and changes nothing, unless the system does not
take the path at all. Then it changes nothing either. -/
theorem run_createDirectories (reached : fs.walk (fs.startOf path) (Path.names path) = .ok loc)
    (directory : fs.node? loc = some .directory) :
    ((createDirectories path).run fs).2 = fs ∧
      (path = "" ∨ admissible path = .ok () → ((createDirectories path).run fs).1 = .ok ()) := by
  rw [createDirectories, makeDirectories]
  -- For the empty path there is nothing to do.
  by_cases empty : path = ""
  · rw [if_pos empty]
    exact ⟨rfl, fun _ => rfl⟩
  · rw [if_neg empty, FileProgram.run_bind]
    cases taken : admissible path with
    | ok =>
      rw [run_ensureDirectory taken reached directory]
      exact ⟨rfl, fun _ => rfl⟩
    | error e =>
      have other : e ≠ .notFound := by
        rintro rfl
        simp only [admissible, empty, if_false] at taken
        split_ifs at taken <;> cases taken
      rw [run_ensureDirectory_of_error taken]
      cases e <;> simp_all

/-! ## The directory of a path -/

/-- The directory of a path that leads into it is reached by the path's parent. -/
theorem walk_parent? {name above : String} (h : fs.Leads path loc name)
    (parent : Path.parent? path = some above) (some : above ≠ "") :
    fs.walk (fs.startOf above) (Path.names above) = .ok loc := by
  obtain ⟨before, spelled, reached⟩ := h.spelled
  have cut := Path.parent?_of_names spelled h.ordinary
  rw [parent, Option.getD_some] at cut
  cases before with
  | nil => exact absurd cut (by simpa using some)
  | cons first rest =>
    -- The parent leaves out idle names only, and they lead nowhere else.
    obtain ⟨idle, split, skipped⟩ := Path.exists_eq_keptAbove_append (first :: rest)
    rw [split] at reached
    obtain ⟨middle, kept, last⟩ := walk_append_iff.mp reached
    cases walk_idle skipped last
    rw [if_neg (List.cons_ne_nil first rest)] at cut
    have noSlash : ∀ n ∈ Path.keptAbove (first :: rest), '/' ∉ n.toList := by
      intro n among
      have among : n ∈ Path.names path := by
        rw [spelled, split, List.append_assoc]
        exact List.mem_append_left _ among
      exact Text.not_mem_of_mem_pieces among
    obtain ⟨⟨idle', names, skipped'⟩, absolute⟩ := Path.exists_names_spell noSlash
    have same : Path.isAbsolute above = Path.isAbsolute path := by
      rw [Bool.eq_iff_iff, cut, Path.keptAbove, absolute, Path.isAbsolute_iff, spelled]
      simp
    rw [cut, Path.keptAbove, names, ← Path.keptAbove, ← cut, startOf, same]
    exact walk_append_iff.mpr ⟨loc, kept, walk_idle_of_directory h.directory skipped'⟩

/-- Making the directory of a path that leads into it changes nothing. -/
theorem run_createDirectories_parent {name above : String} (h : fs.Leads path loc name)
    (parent : Path.parent? path = some above) : ((createDirectories above).run fs).2 = fs := by
  by_cases empty : above = ""
  · subst empty
    rfl
  · exact (run_createDirectories (walk_parent? h parent empty) h.directory).1

/-- A script that is saved where there is a directory for it replaces a file there, and that is
all. -/
theorem run_save_of_leads {text name : String} {after : FileSystem} (h : fs.Leads path loc name)
    (saved : (save path text).run fs = (.ok (), after)) :
    (atomicWrite path text.toUTF8).run fs = (.ok (), after) := by
  unfold save at saved
  split at saved
  · rename_i above parent
    obtain ⟨middle, made, written⟩ := run_andThen_eq_ok_iff.mp saved
    have same := run_createDirectories_parent h parent
    rw [made] at same
    exact same ▸ written
  · exact saved

end Document

/-! ## Rooted file systems -/

/-- Every node lies in a directory. -/
def FileSystem.Rooted (fs : FileSystem) : Prop :=
  ∀ dir name, fs.node? (dir ++ [name]) ≠ none → fs.node? dir = some .directory

namespace FileSystem.Rooted

variable {fs : FileSystem} {loc : Location}

/-- It is enough to look at the nodes there are. -/
theorem of_nodes (h : ∀ entry ∈ fs.nodes, fs.node? entry.1.dropLast = some .directory) :
    fs.Rooted := by
  intro dir name present
  rw [node?_of_ne_root (by simp)] at present
  obtain ⟨node, found⟩ := Option.ne_none_iff_exists'.mp present
  obtain ⟨before, after, split, -⟩ := List.lookup_eq_some_iff.mp found
  have parent := h (dir ++ [name], node) (split ▸ List.mem_append_right _ List.mem_cons_self)
  rwa [List.dropLast_concat] at parent

/-- All above a directory are directories. -/
theorem directory_of_prefix (h : fs.Rooted) {above : Location} (below : above <+: loc)
    (directory : fs.node? loc = some .directory) : fs.node? above = some .directory := by
  obtain ⟨rest, rfl⟩ := below
  -- The induction goes up from the directory, one name at a time.
  induction rest using List.reverseRecOn with
  | nil => simpa using directory
  | append_singleton rest name ih =>
    refine ih (h (above ++ rest) name ?_)
    rw [List.append_assoc, directory]
    simp

/-- Where there is no directory there is nothing below. -/
theorem visible (h : fs.Rooted) {hidden : List Location}
    (closed : ∀ above ∈ hidden, fs.node? above ≠ some .directory)
    (directory : fs.node? loc = some .directory) : ¬ Under hidden loc :=
  fun ⟨above, among, below⟩ => closed above among (h.directory_of_prefix below directory)

end FileSystem.Rooted

end Linework
