import Linework.Proofs.Storage.Rooted

/-!
# `Linework.Proofs.Storage.Exchange`: a file replaced, all or nothing

A replacement that cannot write its new file fails and has changed nothing
(`run_atomicWrite_of_error`). After that only the last rename can fail, and it succeeds for every
path that the system takes, whatever became of the backup (`Beside.exists_exchanged`). Then the new
file has its name, the former one is the backup, and nothing else has changed (`Exchanged`).

But the system may take a sibling of a path and not the path itself. The sibling is spelled without
the idle names before its last one, so it is shorter, and nothing else can be wrong with the path
(`admissible_of_sibling`). Then the new file is written, cannot be given the path, and stays
(`run_atomicWrite_of_long`). `atomicWrite_all_or_nothing_iff` says that there is no other way to
fail halfway.
-/

set_option autoImplicit false

namespace Linework

/-! ## What a sibling is spelled with -/

namespace Path

/-- A character is in texts put together if it is in one of them, unless it is from what stands
between. -/
theorem mem_intercalate_iff {sep : String} {ns : List String} {c : Char} (h : c ∉ sep.toList) :
    c ∈ (sep.intercalate ns).toList ↔ ∃ n ∈ ns, c ∈ n.toList := by
  induction ns with
  | nil => simp
  | cons first rest ih =>
    cases rest with
    | nil => simp
    | cons second rest =>
      rw [String.intercalate_cons_cons, String.toList_append, String.toList_append, List.mem_append,
        List.mem_append, ih, List.exists_mem_cons_iff]
      simp [h]

/-- The characters of a path are those of its names, and slashes. -/
theorem mem_toList_iff {path : String} {c : Char} (other : c ≠ '/') :
    c ∈ path.toList ↔ ∃ n ∈ names path, c ∈ n.toList := by
  have glued : (String.singleton '/').intercalate (names path) = path :=
    Text.intercalate_pieces '/' path
  have apart : c ∉ (String.singleton '/').toList := by simpa using other
  rw [← mem_intercalate_iff apart, glued]

/-- Names put together have a slash between any two. -/
theorem length_le_utf8ByteSize_intercalate (ns : List String) :
    ns.length ≤ ("/".intercalate ns).utf8ByteSize + 1 := by
  induction ns with
  | nil => simp
  | cons first rest ih =>
    cases rest with
    | nil => simp
    | cons second rest =>
      have slash : "/".utf8ByteSize = 1 := rfl
      rw [String.intercalate_cons_cons, String.utf8ByteSize_append, String.utf8ByteSize_append,
        slash, List.length_cons]
      omega

/-- Every name but one has a slash before it. -/
theorem length_names_le (path : String) : (names path).length ≤ path.utf8ByteSize + 1 := by
  have glued : "/".intercalate (names path) = path := Text.intercalate_pieces '/' path
  have size := length_le_utf8ByteSize_intercalate (names path)
  rwa [glued] at size

/-- The characters that a sibling leaves out are slashes and dots. -/
theorem mem_sibling {path name ending : String} {above : List String}
    (spelled : names path = above ++ [name]) (ordinary : Ordinary name)
    (noSlash : '/' ∉ ending.toList) {c : Char} (slash : c ≠ '/') (dot : c ≠ '.')
    (among : c ∈ path.toList) : c ∈ (sibling path ending).toList := by
  obtain ⟨n, named, among⟩ := (mem_toList_iff slash).mp among
  rw [mem_toList_iff slash, names_sibling spelled ordinary noSlash]
  obtain ⟨idle, split, skipped⟩ := exists_eq_keptAbove_append above
  rw [spelled, split, List.mem_append, List.mem_append, List.mem_singleton] at named
  rcases named with (kept | left) | rfl
  · exact ⟨n, List.mem_append_left _ kept, among⟩
  · have blank : n = "" ∨ n = "." := by simpa [isIdle] using skipped n left
    rcases blank with rfl | rfl <;> simp [dot] at among
  · exact ⟨n ++ ending, by simp, by simp [among]⟩

end Path

/-! ## Which paths are taken -/

namespace FileSystem

/-- A path with a sibling that the system takes can only be too long for it. -/
theorem admissible_of_sibling {path name ending : String} {above : List String}
    (spelled : Path.names path = above ++ [name]) (ordinary : Path.Ordinary name)
    (noSlash : '/' ∉ ending.toList) (taken : admissible (Path.sibling path ending) = .ok ()) :
    admissible path
      = if pathLimit < path.utf8ByteSize then .error .nameTooLong else .ok () := by
  have clean : '\x00' ∉ path.toList := fun nul =>
    ((admissible_iff _).mp taken).1
      (Path.mem_sibling spelled ordinary noSlash (by decide) (by decide) nul)
  have ne : path ≠ "" := by
    rintro rfl
    have single : [] ++ [""] = above ++ [name] := spelled
    have empty := List.append_inj_right' single rfl
    exact ordinary.ne_empty (List.singleton_inj.mp empty).symm
  simp [admissible, clean, ne]

/-- What a path leads to, if there is anything, is what its location holds. -/
theorem Leads.find_congr {fs after : FileSystem} {path name : String} {dir : Location}
    (h : fs.Leads path dir name) (h' : after.Leads path dir name) (fits : Fits path name)
    (same : after.node? (dir ++ [name]) = fs.node? (dir ++ [name])) :
    after.find path = fs.find path := by
  simp only [find, h.locate fits, h'.locate fits, same]

/-! ## Moving a file -/

section MoveFile

variable {fs : FileSystem} {dir : Location} {name name' : String} {data : ByteArray}
  (node : fs.node? (dir ++ [name]) = some (.file data))
  (free : fs.node? (dir ++ [name']) ≠ some .directory) (ne : name ≠ name')
include node free ne

/-- A file can be moved to any other name that is no directory's. -/
theorem movable_of_file : fs.Movable (dir ++ [name]) (dir ++ [name']) where
  present := by simp [node]
  below := not_prefix_of_ne ne
  above := not_prefix_of_ne ne.symm
  empty taken := absurd taken free

/-- A file that is moved leaves its place empty, and only that and its new place change. -/
theorem node?_moveNode_file (rooted : fs.Rooted) (loc : Location) :
    (fs.moveNode (dir ++ [name]) (dir ++ [name'])).node? loc
      = if loc = dir ++ [name'] then some (.file data)
        else if loc = dir ++ [name] then none else fs.node? loc := by
  have movable := movable_of_file node free ne
  have further {above rest : Location} (other : above ++ rest ≠ above) : rest ≠ [] := by
    rintro rfl
    exact other (List.append_nil above)
  split_ifs with new old
  · rw [new, node?_moveNode_child_target ne, node]
  · rw [old, node?_moveNode_child_source ne]
  · -- There is nothing below the two places, before or after.
    by_cases below : dir ++ [name] <+: loc
    · obtain ⟨rest, rfl⟩ := below
      rw [movable.node?_moveNode_source_append, rooted.node?_below_file node (further old)]
    by_cases below' : dir ++ [name'] <+: loc
    · obtain ⟨rest, rfl⟩ := below'
      rw [movable.node?_moveNode_target_append rooted,
        rooted.node?_below_file node (further new), movable.node?_below_target rooted (further new)]
    exact node?_moveNode_of_apart below below'

end MoveFile

/-- The files are what they were. -/
structure Unchanged (fs after : FileSystem) : Prop where
  current : after.current = fs.current
  node : ∀ loc, after.node? loc = fs.node? loc

/-- Files that are left alone are unchanged. -/
theorem Unchanged.refl (fs : FileSystem) : Unchanged fs fs where
  current := rfl
  node _ := rfl

/-- A node that is put where it was already makes no difference. -/
theorem unchanged_putNode_iff {fs : FileSystem} {loc : Location} {node : Node} (ne : loc ≠ []) :
    Unchanged fs (fs.putNode loc node) ↔ fs.node? loc = some node := by
  have put : (fs.putNode loc node).node? loc = some node := node?_putNode_self ne
  constructor
  · intro h
    rw [← h.node loc, put]
  · intro there
    refine ⟨rfl, fun other => ?_⟩
    by_cases same : other = loc
    · rw [same, put, there]
    · exact node?_putNode_of_ne same

end FileSystem

open FileSystem Document

/-! ## The backup -/

/-- What was at a name is at the backup's now. If there was nothing, or there is a directory in the
way, the backup is what it was. -/
structure KeptBackup (dir : Location) (name : String) (fs after : FileSystem) : Prop where
  current : after.current = fs.current
  clear : after.node? (dir ++ [name]) ≠ some .directory
  moved : fs.node? (dir ++ [name]) ≠ none → fs.node? (dir ++ [name ++ ".bak"]) ≠ some .directory →
    after.node? (dir ++ [name ++ ".bak"]) = fs.node? (dir ++ [name])
  same : fs.node? (dir ++ [name]) = none ∨ fs.node? (dir ++ [name ++ ".bak"]) = some .directory →
    after.node? (dir ++ [name ++ ".bak"]) = fs.node? (dir ++ [name ++ ".bak"])
  others : ∀ loc, loc ≠ dir ++ [name] → loc ≠ dir ++ [name ++ ".bak"] →
    after.node? loc = fs.node? loc

namespace Beside

variable {fs : FileSystem} {path : String} {dir : Location} {name : String} {data : ByteArray}

/-- The backup of a file, whether or not it succeeds. -/
theorem keptBackup (h : Beside fs path dir name) (rooted : fs.Rooted)
    (clear : fs.node? (dir ++ [name]) ≠ some .directory) :
    KeptBackup dir name fs (backedUp path (Path.sibling path ".bak") fs) ∧
      Beside (backedUp path (Path.sibling path ".bak") fs) path dir name ∧
      (backedUp path (Path.sibling path ".bak") fs).Rooted := by
  have stays (idle : fs.node? (dir ++ [name]) = none ∨
      fs.node? (dir ++ [name ++ ".bak"]) = some .directory) : KeptBackup dir name fs fs :=
    ⟨rfl, clear, fun some free => (idle.elim some free).elim, fun _ => rfl, fun _ _ _ => rfl⟩
  -- There is nothing at the name, or a file, and the backup of a file may be in a directory's
  -- way.
  rcases node : fs.node? (dir ++ [name]) with _ | old | _
  · have nothing : fs.find path = .error .notFound := by
      simp [find, h.leads.locate h.fits, node]
    rw [backedUp_of_find_error nothing]
    exact ⟨stays (.inl node), h, rooted⟩
  · by_cases taken : fs.node? (dir ++ [name ++ ".bak"]) = some .directory
    · rw [h.backedUp_of_directory node taken]
      exact ⟨stays (.inr taken), h, rooted⟩
    · rw [h.backedUp_eq_move node taken]
      have ne := name_ne_backup name
      have moves := node?_moveNode_file node taken ne rooted
      refine ⟨⟨rfl, ?_, ?_, ?_, ?_⟩, h.moveNode clear taken,
        rooted.moveNode (movable_of_file node taken ne) h.leads.directory⟩
      · simp [node?_moveNode_child_source ne]
      · intro _ _
        exact node?_moveNode_child_target ne
      · rw [node]
        rintro (none | directory)
        · cases none
        · exact absurd directory taken
      · intro loc other other'
        rw [moves, if_neg other', if_neg other]
  · exact absurd node clear

end Beside

/-! ## The exchange -/

/-- The file at a path was exchanged for one with the given bytes: the new file is at the path and
not beside it, the former one is the backup, unless a directory is in the way, and nothing else has
changed. -/
structure Exchanged (path : String) (data : ByteArray) (fs after : FileSystem) : Prop where
  current : after.current = fs.current
  held : after.read path = .ok data
  new : after.find (Path.sibling path ".tmp") = .error .notFound
  moved : ∀ old, fs.read path = .ok old → fs.find (Path.sibling path ".bak") ≠ .ok .directory →
    after.read (Path.sibling path ".bak") = .ok old
  same : (∀ old, fs.read path ≠ .ok old) ∨ fs.find (Path.sibling path ".bak") = .ok .directory →
    after.find (Path.sibling path ".bak") = fs.find (Path.sibling path ".bak")
  others : ∀ loc, fs.locate path ≠ .ok loc → fs.locate (Path.sibling path ".tmp") ≠ .ok loc →
    fs.locate (Path.sibling path ".bak") ≠ .ok loc → after.node? loc = fs.node? loc

namespace Beside

variable {fs : FileSystem} {path : String} {dir : Location} {name : String} {data : ByteArray}

/-- What the three names stand for says whether the file was exchanged. -/
theorem exchanged_of_nodes (h : Beside fs path dir name) {after : FileSystem}
    (h' : Beside after path dir name) (current : after.current = fs.current)
    (clear : fs.node? (dir ++ [name]) ≠ some .directory)
    (held : after.node? (dir ++ [name]) = some (.file data))
    (new : after.node? (dir ++ [name ++ ".tmp"]) = none)
    (moved : fs.node? (dir ++ [name]) ≠ none →
      fs.node? (dir ++ [name ++ ".bak"]) ≠ some .directory →
      after.node? (dir ++ [name ++ ".bak"]) = fs.node? (dir ++ [name]))
    (same : fs.node? (dir ++ [name]) = none ∨
        fs.node? (dir ++ [name ++ ".bak"]) = some .directory →
      after.node? (dir ++ [name ++ ".bak"]) = fs.node? (dir ++ [name ++ ".bak"]))
    (others : ∀ loc, loc ≠ dir ++ [name] → loc ≠ dir ++ [name ++ ".tmp"] →
      loc ≠ dir ++ [name ++ ".bak"] → after.node? loc = fs.node? loc) :
    Exchanged path data fs after where
  current := current
  held := h'.leads.read_eq_ok h.fits held
  new := by simp [find, h'.leadsNew.locate h.fitsNew, new]
  moved := by
    intro old former free
    have node := h.leads.node?_of_read h.fits former
    refine h'.leadsBackup.read_eq_ok h.fitsBackup ?_
    rw [moved (by simp [node]) fun taken => ?_, node]
    exact free ((h.leadsBackup.find_eq_ok_iff h.fitsBackup).mpr taken)
  same := by
    -- A backup that was not made is looked up as before.
    intro idle
    refine h.leadsBackup.find_congr h'.leadsBackup h.fitsBackup (same ?_)
    refine idle.imp (fun none => ?_) (h.leadsBackup.find_eq_ok_iff h.fitsBackup).mp
    rcases node : fs.node? (dir ++ [name]) with _ | old | _
    · rfl
    · exact absurd (h.leads.read_eq_ok h.fits node) (none old)
    · exact absurd node clear
  others := by
    intro loc other other' other''
    refine others loc ?_ ?_ ?_
    · rintro rfl
      exact other (h.leads.locate h.fits)
    · rintro rfl
      exact other' (h.leadsNew.locate h.fitsNew)
    · rintro rfl
      exact other'' (h.leadsBackup.locate h.fitsBackup)

/-- Once the new file has been written, the exchange succeeds. -/
theorem exists_exchanged (h : Beside fs path dir name) (rooted : fs.Rooted)
    (clear : fs.node? (dir ++ [name]) ≠ some .directory) {written : FileSystem}
    (wrote : fs.write (Path.sibling path ".tmp") data = .ok written) :
    ∃ after, (atomicWrite path data).run fs = (.ok (), after) ∧ Exchanged path data fs after := by
  obtain ⟨-, free, put⟩ := h.leadsNew.write_eq_ok_iff.mp wrote
  obtain ⟨beside, former, new, backup⟩ := h.write wrote
  obtain ⟨kept, later, rooted'⟩ := beside.keptBackup (rooted.write wrote) (former ▸ clear)
  have ne := (name_ne_new name).symm
  have ran (after : FileSystem) :
      (backedUp path (Path.sibling path ".bak") written).rename (Path.sibling path ".tmp") path
        = .ok after → (atomicWrite path data).run fs = (.ok (), after) :=
    fun renamed => run_atomicWrite_eq_ok_iff.mpr ⟨written, wrote, renamed⟩
  generalize backedUp path (Path.sibling path ".bak") written = backed at kept later rooted' ran
  -- The backup does not touch the new file, which is then moved out of the way.
  have new' : backed.node? (dir ++ [name ++ ".tmp"]) = some (.file data) := by
    rw [kept.others _ (by simp) (by simp), new]
  -- The last rename moves the new file, and no other place has to do with it.
  have moves := node?_moveNode_file new' kept.clear ne rooted'
  have after : Beside (backed.moveNode (dir ++ [name ++ ".tmp"]) (dir ++ [name])) path dir name :=
    later.moveNode (by simp [new']) kept.clear
  refine ⟨_, ran _ (later.leadsNew.rename_eq_move later.leads h.fitsNew h.fits ne new' kept.clear),
    h.exchanged_of_nodes after ?_ clear ?_ ?_ ?_ ?_ ?_⟩
  · rw [put] at kept
    exact kept.current
  · rw [moves, if_pos rfl]
  · rw [moves, if_neg (by simp), if_pos rfl]
  · rw [moves, if_neg (by simp), if_neg (by simp), ← former, ← backup]
    exact kept.moved
  · rw [moves, if_neg (by simp), if_neg (by simp), ← former, ← backup]
    exact kept.same
  · intro loc other other' other''
    rw [moves, if_neg other, if_neg other', kept.others loc other other'', put]
    exact node?_putNode_of_ne other'

end Beside

/-! ## All or nothing -/

/-- The replacement has failed and changed nothing, or it has succeeded and exchanged the file. -/
def AllOrNothing (path : String) (data : ByteArray) (fs : FileSystem) : Prop :=
  (∃ e after, (atomicWrite path data).run fs = (.error e, after) ∧ Unchanged fs after) ∨
    ∃ after, (atomicWrite path data).run fs = (.ok (), after) ∧ Exchanged path data fs after

section Replacing

variable {fs : FileSystem} {path name : String} {above : List String} {data : ByteArray}
  {written : FileSystem} (spelled : Path.names path = above ++ [name])
  (ordinary : Path.Ordinary name)
  (wrote : fs.write (Path.sibling path ".tmp") data = .ok written)
include spelled ordinary wrote

/-- Where the new file can be written, it is beside what the path stands for. -/
theorem exists_leads_of_write_sibling : ∃ dir, fs.Leads path dir name ∧
    fs.Leads (Path.sibling path ".tmp") dir (name ++ ".tmp") ∧
    Fits (Path.sibling path ".tmp") (name ++ ".tmp") ∧
    fs.node? (dir ++ [name ++ ".tmp"]) ≠ some .directory ∧
    written = fs.putNode (dir ++ [name ++ ".tmp"]) (.file data) := by
  obtain ⟨t, -, found, -⟩ := exists_of_write wrote
  obtain ⟨dir, leads⟩ :=
    exists_leads_of_target_sibling spelled ordinary (by decide) (by decide) found
  have new : fs.Leads (Path.sibling path ".tmp") dir (name ++ ".tmp") :=
    leads.sibling (by decide) (ordinary.append (by decide))
  exact ⟨dir, leads, new, new.write_eq_ok_iff.mp wrote⟩

/-- A path that is too long cannot be given to a file, though its sibling can. -/
theorem run_atomicWrite_of_long (long : pathLimit < path.utf8ByteSize) :
    (atomicWrite path data).run fs = (.error .nameTooLong, written) := by
  obtain ⟨dir, leads, leadsNew, fits, free, put⟩ :=
    exists_leads_of_write_sibling spelled ordinary wrote
  have refused : admissible path = .error .nameTooLong := by
    rw [admissible_of_sibling spelled ordinary (by decide) fits.admissible, if_pos long]
  -- The former file is not found under the path, so there is no backup.
  have kept : backedUp path (Path.sibling path ".bak") written = written := by
    refine backedUp_of_find_error (e := .nameTooLong) ?_
    simp [find, locate, refused]
  -- The last rename finds the new file, but no place for it.
  have source : written.target (Path.sibling path ".tmp")
      = .ok ⟨dir, some (name ++ ".tmp"), false⟩ := by
    rw [put]
    exact (leadsNew.putNode free).target_of_fits fits
  have destination : written.target path = .error .nameTooLong := by simp [target, refused]
  have renamed : written.rename (Path.sibling path ".tmp") path = .error .nameTooLong := by
    rw [rename, source, destination]
  have second : ((backUp path (Path.sibling path ".bak")).run written).2 = written := kept
  simp [atomicWrite, andThen, writeFile, FileProgram.run, wrote, FileProgram.answer, second,
    renamePath, renamed]

/-- A path that is not too long is given to the new file. -/
theorem exists_exchanged_of_short (rooted : fs.Rooted) (clear : fs.find path ≠ .ok .directory)
    (short : path.utf8ByteSize ≤ pathLimit) :
    ∃ after, (atomicWrite path data).run fs = (.ok (), after) ∧ Exchanged path data fs after := by
  obtain ⟨dir, leads, -, fitsNew, -, -⟩ := exists_leads_of_write_sibling spelled ordinary wrote
  have taken : admissible path = .ok () := by
    rw [admissible_of_sibling spelled ordinary (by decide) fitsNew.admissible,
      if_neg (Nat.not_lt.mpr short)]
  have fits : Fits path name := by
    refine ⟨taken, ?_⟩
    have longer := fitsNew.short
    rw [String.utf8ByteSize_append] at longer
    exact Nat.le_of_add_right_le longer
  have beside := Beside.of_write leads fits wrote
  exact beside.exists_exchanged rooted
    (fun there => clear ((leads.find_eq_ok_iff fits).mpr there)) wrote

end Replacing

/-- A replacement is all or nothing unless the path is too long for the system and the new file can
be written beside it. Then the replacement fails and leaves the new file, which makes a difference
unless it was there before. Whenever the path is not too long and the new file can be written, the
replacement succeeds. -/
theorem atomicWrite_all_or_nothing_iff {fs : FileSystem} (rooted : fs.Rooted) {path name : String}
    {above : List String} (spelled : Path.names path = above ++ [name])
    (ordinary : Path.Ordinary name) (clear : fs.find path ≠ .ok .directory) (data : ByteArray) :
    (AllOrNothing path data fs ↔
        path.utf8ByteSize ≤ pathLimit ∨
          (∀ written, fs.write (Path.sibling path ".tmp") data ≠ .ok written) ∨
            fs.read (Path.sibling path ".tmp") = .ok data) ∧
      ∀ written, fs.write (Path.sibling path ".tmp") data = .ok written →
        (pathLimit < path.utf8ByteSize →
            (atomicWrite path data).run fs = (.error .nameTooLong, written)) ∧
          (path.utf8ByteSize ≤ pathLimit →
            ∃ after, (atomicWrite path data).run fs = (.ok (), after) ∧
              Exchanged path data fs after) := by
  refine ⟨?_, fun written wrote => ⟨run_atomicWrite_of_long spelled ordinary wrote,
    exists_exchanged_of_short spelled ordinary wrote rooted clear⟩⟩
  -- If the new file cannot be written, nothing else is tried.
  cases wrote : fs.write (Path.sibling path ".tmp") data with
  | error e =>
    have nothing : AllOrNothing path data fs :=
      .inl ⟨e, fs, run_atomicWrite_of_error wrote, .refl fs⟩
    exact iff_of_true nothing (.inr (.inl (by simp)))
  | ok written =>
    rcases Nat.lt_or_ge pathLimit path.utf8ByteSize with long | short
    · -- All there is to see afterwards is the new file.
      have ran := run_atomicWrite_of_long spelled ordinary wrote long
      have failed : AllOrNothing path data fs ↔ Unchanged fs written := by
        simp [AllOrNothing, ran]
      obtain ⟨dir, -, leadsNew, fitsNew, -, put⟩ :=
        exists_leads_of_write_sibling spelled ordinary wrote
      have there : Unchanged fs written ↔ fs.read (Path.sibling path ".tmp") = .ok data := by
        rw [put, unchanged_putNode_iff (by simp)]
        exact ⟨leadsNew.read_eq_ok fitsNew, leadsNew.node?_of_read fitsNew⟩
      rw [failed, there]
      simp [Nat.not_le.mpr long]
    · have exchanged := exists_exchanged_of_short spelled ordinary wrote rooted clear short
      exact iff_of_true (.inr exchanged) (.inl short)

/-- A script is saved where one was saved before. -/
theorem savedScript_all_or_nothing :
    savedScript.Rooted ∧ Path.names "script.thtm" = [] ++ ["script.thtm"] ∧
      Path.Ordinary "script.thtm" ∧ savedScript.find "script.thtm" ≠ .ok .directory ∧
        AllOrNothing "script.thtm" "line 2 2".toUTF8 savedScript := by
  have rooted : savedScript.Rooted := by
    refine FileSystem.Rooted.of_nodes ?_
    simp [savedScript, node?]
  have spelled : Path.names "script.thtm" = [] ++ ["script.thtm"] := rfl
  have ordinary : Path.Ordinary "script.thtm" := Path.ordinary_of_length (by decide)
  have clear : savedScript.find "script.thtm" ≠ .ok .directory := by
    intro found
    cases found
  refine ⟨rooted, spelled, ordinary, clear, ?_⟩
  exact (atomicWrite_all_or_nothing_iff rooted spelled ordinary clear _).1.mpr (.inl (by decide))

/-- A directory with nothing in it. -/
def emptyDirectory : FileSystem where
  nodes := [(["a"], .directory)]
  current := []

/-- The path of a script in the directory, spelled with more idle names than a path can hold. -/
def longWay : String := "/".intercalate ("a" :: List.replicate 4096 "." ++ ["s"])

/-- The names of the path. -/
theorem names_longWay : Path.names longWay = "a" :: List.replicate 4096 "." ++ ["s"] := by
  have ne := List.append_ne_nil_of_right_ne_nil ("a" :: List.replicate 4096 ".")
    (List.cons_ne_nil "s" [])
  refine Path.names_intercalate ne fun n among => ?_
  rw [List.mem_append, List.mem_cons, List.mem_replicate, List.mem_singleton] at among
  rcases among with (rfl | ⟨-, rfl⟩) | rfl <;> decide

/-- With a slash for each of its names the path is too long. -/
theorem longWay_is_long : pathLimit < longWay.utf8ByteSize := by
  have size := Path.length_names_le longWay
  rw [names_longWay] at size
  simp only [List.length_append, List.length_cons, List.length_replicate, List.length_nil] at size
  rw [pathLimit]
  omega

/-- The sibling leaves out the idle names. -/
theorem sibling_longWay : Path.sibling longWay ".tmp" = "a/s.tmp" := by
  have ordinary : Path.Ordinary "s" := ⟨by decide, by decide⟩
  refine Path.names_injective ?_
  rw [Path.names_sibling names_longWay ordinary (by decide), Path.keptAbove]
  have idle : ∀ n ∈ List.replicate 4096 ".", Path.isIdle n = true := by
    intro n among
    rw [(List.mem_replicate.mp among).2]
    rfl
  have none : Path.dropIdleEnd ([] ++ List.replicate 4096 ".") = Path.dropIdleEnd [] :=
    Path.dropIdleEnd_append idle
  rw [List.nil_append] at none
  rw [none]
  rfl

/-- The path is too long to find anything, so nothing is replaced. But the new file is there. -/
theorem longWay_half_done :
    emptyDirectory.Rooted ∧ (∃ above, Path.names longWay = above ++ ["s"]) ∧ Path.Ordinary "s" ∧
      emptyDirectory.find longWay ≠ .ok .directory ∧
        ¬ AllOrNothing longWay "v".toUTF8 emptyDirectory := by
  have rooted : emptyDirectory.Rooted := by
    refine FileSystem.Rooted.of_nodes ?_
    simp [emptyDirectory, node?]
  have ordinary : Path.Ordinary "s" := ⟨by decide, by decide⟩
  have wrote : emptyDirectory.write (Path.sibling longWay ".tmp") "v".toUTF8
      = .ok (emptyDirectory.putNode ["a", "s.tmp"] (.file "v".toUTF8)) := by
    rw [sibling_longWay]
    rfl
  have ran := run_atomicWrite_of_long names_longWay ordinary wrote longWay_is_long
  refine ⟨rooted, ⟨_, names_longWay⟩, ordinary, ?_, ?_⟩
  · intro found
    have taken : admissible longWay = .ok () := by
      rw [find] at found
      split at found
      · cases found
      · rename_i located
        exact (locate_eq_ok_iff.mp located).1
    exact absurd ((admissible_iff longWay).mp taken).2.2 (Nat.not_le.mpr longWay_is_long)
  · rintro (⟨e, after, ran', same⟩ | ⟨after, ran', -⟩)
    · cases ran.symm.trans ran'
      have there := (unchanged_putNode_iff (by simp)).mp same
      cases there
    · cases ran.symm.trans ran'

end Linework
