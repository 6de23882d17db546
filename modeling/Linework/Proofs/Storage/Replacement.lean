import Linework.Proofs.Storage.Reach
import Linework.Storage.Document

/-!
# `Linework.Proofs.Storage.Replacement`: a file replaced, and half replaced

`atomicWrite` replaces a file in three steps. It writes the new file beside the former one, renames
the former one to a backup, and gives the new one its name. `FileProgram.Leaves` says what a crash
may leave of a program: the state before or after any of its operations, or a file of which only
the first bytes were written. For a replacement these are few (`leaves_atomicWrite_iff`).

Two of the steps are harmless. Writing changes nothing at the path, and the last rename puts the
new file there. The backup is not: between the two renames there is nothing at the path
(`HalfReplaced`). The files are both there under other names, but nobody looks for them, and a
script that was saved passes for one that never was. `crash_while_replacing` says exactly when a
crash can do that.
-/

set_option autoImplicit false

namespace Linework

/-! ## What a crash leaves -/

namespace FileProgram

variable {α β : Type}

/-- The files that a crash may leave: those that the program passes through and, for a write, those
with the first bytes of the file only. -/
def Leaves : FileProgram α → FileSystem → FileSystem → Prop
  | done _, fs, left => left = fs
  | inspect path next, fs, left =>
    left = fs ∨ (next ((fs.find path).map Node.isDirectory)).Leaves fs left
  | read path next, fs, left => left = fs ∨ (next (fs.read path)).Leaves fs left
  | write path data next, fs, left =>
    left = fs ∨ (∃ n, fs.write path (data.extract 0 n) = .ok left) ∨
      (next (answer fs (fs.write path data)).1).Leaves (answer fs (fs.write path data)).2 left
  | makeDirectory path next, fs, left =>
    left = fs ∨
      (next (answer fs (fs.makeDirectory path)).1).Leaves (answer fs (fs.makeDirectory path)).2 left
  | rename source target next, fs, left =>
    left = fs ∨
      (next (answer fs (fs.rename source target)).1).Leaves
        (answer fs (fs.rename source target)).2 left

/-- A crash may leave every state that the program passes through. -/
theorem leaves_of_mem_states {p : FileProgram α} {fs left : FileSystem}
    (h : left ∈ p.states fs) : p.Leaves fs left := by
  -- The induction is on the program, and the first of its states is the one that it starts in.
  induction p generalizing fs with
  | done value => exact List.mem_singleton.mp h
  | inspect path next ih => exact (List.mem_cons.mp h).imp_right (ih _)
  | read path next ih => exact (List.mem_cons.mp h).imp_right (ih _)
  | write path data next ih => exact (List.mem_cons.mp h).imp_right fun later => .inr (ih _ later)
  | makeDirectory path next ih => exact (List.mem_cons.mp h).imp_right (ih _)
  | rename source target next ih => exact (List.mem_cons.mp h).imp_right (ih _)

/-- A program that does nothing leaves what was there. -/
@[simp]
theorem leaves_pure {value : α} {fs left : FileSystem} :
    (pure value : FileProgram α).Leaves fs left ↔ left = fs := Iff.rfl

/-- A program may be cut short before it does anything. -/
theorem leaves_start (p : FileProgram α) (fs : FileSystem) : p.Leaves fs fs := by
  cases p with
  | done value => rfl
  | _ => exact .inl rfl

/-- Two programs in a row are cut short in the first or in the second. -/
theorem leaves_bind {p : FileProgram α} {f : α → FileProgram β} {fs left : FileSystem} :
    (p >>= f).Leaves fs left ↔
      p.Leaves fs left ∨ (f (p.run fs).1).Leaves (p.run fs).2 left := by
  show (p.bind f).Leaves fs left ↔ _
  -- The induction is on the first program. Each of its steps adds the same to both sides.
  induction p generalizing fs with
  | done value =>
    -- Nothing has been done yet, and that is where the second program starts.
    constructor
    · exact .inr
    · rintro (rfl | later)
      · exact leaves_start _ _
      · exact later
  | inspect path next ih => simp only [bind, Leaves, ih, run, or_assoc]
  | read path next ih => simp only [bind, Leaves, ih, run, or_assoc]
  | write path data next ih => simp only [bind, Leaves, ih, run, or_assoc]
  | makeDirectory path next ih => simp only [bind, Leaves, ih, run, or_assoc]
  | rename source target next ih => simp only [bind, Leaves, ih, run, or_assoc]

end FileProgram

namespace Document

/-- Loading says that nothing was saved exactly if nothing is found at the path. -/
theorem load_eq_none_iff {path : String} {fs : FileSystem} :
    ((load path).run fs).1 = .ok none ↔ fs.read path = .error .notFound := by
  simp only [load, FileProgram.run]
  cases fs.read path with
  | ok data =>
    simp only
    split <;> simp [FileProgram.run]
  | error e => cases e <;> simp [FileProgram.run]

/-! ## The steps of a replacement -/

/-- The files after what is at a path has been kept under another name, if it can be. -/
def backedUp (path backup : String) (fs : FileSystem) : FileSystem :=
  ((backUp path backup).run fs).2

/-- What is found is renamed, or the files stay as they are if that fails. -/
theorem backedUp_of_find {path backup : String} {fs : FileSystem} {node : Node}
    (h : fs.find path = .ok node) :
    backedUp path backup fs = (FileProgram.answer fs (fs.rename path backup)).2 := by
  simp [backedUp, backUp, FileProgram.pathExists, renamePath, FileProgram.run, h, Except.isOk,
    Except.toBool, Except.map]

/-- Without anything at the path there is nothing to keep. -/
theorem backedUp_of_find_error {path backup : String} {fs : FileSystem} {e : OsError}
    (h : fs.find path = .error e) : backedUp path backup fs = fs := by
  simp [backedUp, backUp, FileProgram.pathExists, FileProgram.run, h, Except.isOk, Except.toBool,
    Except.map]

/-- A rename has been done or not. -/
theorem leaves_renamePath_iff {source target : String} {fs left : FileSystem} :
    (renamePath source target).Leaves fs left ↔ left = fs ∨ fs.rename source target = .ok left := by
  simp only [renamePath, FileProgram.Leaves]
  cases fs.rename source target <;> simp [FileProgram.answer, eq_comm]

/-- So has a backup. -/
theorem leaves_backUp_iff {path backup : String} {fs left : FileSystem} :
    (backUp path backup).Leaves fs left ↔ left = fs ∨ left = backedUp path backup fs := by
  rw [backedUp, backUp, FileProgram.leaves_bind, FileProgram.run_bind]
  simp only [FileProgram.pathExists, FileProgram.Leaves, FileProgram.run]
  cases ((fs.find path).map Node.isDirectory).isOk with
  | false => simp
  | true =>
    simp only [if_true, FileProgram.leaves_bind, leaves_renamePath_iff, FileProgram.run_bind]
    simp only [renamePath, FileProgram.run]
    cases fs.rename path backup <;> simp [FileProgram.answer, eq_comm]

/-- Where a crash may cut a replacement short: in the middle of writing the new file, after that,
after the backup, or at the end. -/
theorem leaves_atomicWrite_iff {path : String} {data : ByteArray} {fs left : FileSystem} :
    (atomicWrite path data).Leaves fs left ↔ left = fs ∨
      (∃ n, fs.write (Path.sibling path ".tmp") (data.extract 0 n) = .ok left) ∨
      ∃ written, fs.write (Path.sibling path ".tmp") data = .ok written ∧
        (left = written ∨ left = backedUp path (Path.sibling path ".bak") written ∨
          (backedUp path (Path.sibling path ".bak") written).rename (Path.sibling path ".tmp") path
            = .ok left) := by
  rw [atomicWrite, andThen, FileProgram.leaves_bind]
  simp only [writeFile, FileProgram.Leaves, FileProgram.run]
  cases fs.write (Path.sibling path ".tmp") data with
  | error e =>
    simp [FileProgram.answer, or_comm]
  | ok written =>
    simp only [FileProgram.answer, FileProgram.leaves_bind, leaves_backUp_iff, leaves_renamePath_iff,
      Except.ok.injEq, exists_eq_left']
    -- Each step begins where the one before it ends, so some states are there twice.
    constructor
    · rintro ((start | torn | all) | (all | kept) | kept | renamed)
      · exact .inl start
      · exact .inr (.inl torn)
      · exact .inr (.inr (.inl all))
      · exact .inr (.inr (.inl all))
      · exact .inr (.inr (.inr (.inl kept)))
      · exact .inr (.inr (.inr (.inl kept)))
      · exact .inr (.inr (.inr (.inr renamed)))
    · rintro (start | torn | all | kept | renamed)
      · exact .inl (.inl start)
      · exact .inl (.inr (.inl torn))
      · exact .inl (.inr (.inr all))
      · exact .inr (.inl (.inr kept))
      · exact .inr (.inr (.inr renamed))

end Document

/-! ## The three names -/

open FileSystem Document

/-- A path and its two siblings stand for names in one directory, and the system takes all
three. -/
structure Beside (fs : FileSystem) (path : String) (dir : Location) (name : String) : Prop where
  leads : fs.Leads path dir name
  fits : Fits path name
  leadsNew : fs.Leads (Path.sibling path ".tmp") dir (name ++ ".tmp")
  fitsNew : Fits (Path.sibling path ".tmp") (name ++ ".tmp")
  leadsBackup : fs.Leads (Path.sibling path ".bak") dir (name ++ ".bak")
  fitsBackup : Fits (Path.sibling path ".bak") (name ++ ".bak")

namespace Beside

variable {fs : FileSystem} {path : String} {dir : Location} {name : String} {old data : ByteArray}

/-- A file and its new one have different names. -/
theorem name_ne_new (name : String) : name ≠ name ++ ".tmp" :=
  fun same => absurd same.symm (by simp)

/-- So have a file and its backup. -/
theorem name_ne_backup (name : String) : name ≠ name ++ ".bak" :=
  fun same => absurd same.symm (by simp)

/-- And so have the two siblings. -/
theorem new_ne_backup (name : String) : name ++ ".tmp" ≠ name ++ ".bak" := by simp

/-- If the new file can be written, all three names are in order. -/
theorem of_write (leads : fs.Leads path dir name) (fits : Fits path name) {written : FileSystem}
    (h : fs.write (Path.sibling path ".tmp") data = .ok written) : Beside fs path dir name := by
  have new : fs.Leads (Path.sibling path ".tmp") dir (name ++ ".tmp") :=
    leads.sibling (by decide) (leads.ordinary.append (by decide))
  obtain ⟨fitsNew, -⟩ := new.write_eq_ok_iff.mp h
  exact
    { leads := leads
      fits := fits
      leadsNew := new
      fitsNew := fitsNew
      leadsBackup := leads.sibling (by decide) (leads.ordinary.append (by decide))
      fitsBackup :=
        leads.fits_sibling (by decide) (by decide) (by decide) (by decide) fitsNew }

/-- The new file is written beside the former one, and nothing else changes. -/
theorem write (h : Beside fs path dir name) {written : FileSystem}
    (wrote : fs.write (Path.sibling path ".tmp") data = .ok written) :
    Beside written path dir name ∧
      written.node? (dir ++ [name]) = fs.node? (dir ++ [name]) ∧
      written.node? (dir ++ [name ++ ".tmp"]) = some (.file data) ∧
      written.node? (dir ++ [name ++ ".bak"]) = fs.node? (dir ++ [name ++ ".bak"]) := by
  obtain ⟨-, free, rfl⟩ := h.leadsNew.write_eq_ok_iff.mp wrote
  refine ⟨⟨h.leads.putNode free, h.fits, h.leadsNew.putNode free, h.fitsNew,
    h.leadsBackup.putNode free, h.fitsBackup⟩, ?_, ?_, ?_⟩
  · exact node?_putNode_child (name_ne_new name).symm _
  · exact node?_putNode_self (by simp)
  · exact node?_putNode_child (new_ne_backup name) _

/-- The names keep their meaning while files of the directory are moved. -/
theorem moveNode (h : Beside fs path dir name) {child other : String}
    (source : fs.node? (dir ++ [child]) ≠ some .directory)
    (target : fs.node? (dir ++ [other]) ≠ some .directory) :
    Beside (fs.moveNode (dir ++ [child]) (dir ++ [other])) path dir name where
  leads := h.leads.moveNode source target
  fits := h.fits
  leadsNew := h.leadsNew.moveNode source target
  fitsNew := h.fitsNew
  leadsBackup := h.leadsBackup.moveNode source target
  fitsBackup := h.fitsBackup

/-- A directory in the way of the backup keeps the former file where it is. -/
theorem backedUp_of_directory (h : Beside fs path dir name)
    (node : fs.node? (dir ++ [name]) = some (.file old))
    (taken : fs.node? (dir ++ [name ++ ".bak"]) = some .directory) :
    backedUp path (Path.sibling path ".bak") fs = fs := by
  have found := (h.leads.find_eq_ok_iff h.fits).mpr node
  rw [backedUp_of_find found, h.leads.rename_of_directory h.leadsBackup h.fits h.fitsBackup
    (name_ne_backup name) node taken]
  rfl

/-- Otherwise the former file has gone from the path. -/
theorem backedUp_eq_move (h : Beside fs path dir name)
    (node : fs.node? (dir ++ [name]) = some (.file old))
    (free : fs.node? (dir ++ [name ++ ".bak"]) ≠ some .directory) :
    backedUp path (Path.sibling path ".bak") fs
      = fs.moveNode (dir ++ [name]) (dir ++ [name ++ ".bak"]) := by
  have found := (h.leads.find_eq_ok_iff h.fits).mpr node
  rw [backedUp_of_find found, h.leads.rename_eq_move h.leadsBackup h.fits h.fitsBackup
    (name_ne_backup name) node free]
  rfl

/-- In the end the new file is at the path. -/
theorem read_of_rename (h : Beside fs path dir name)
    (node : fs.node? (dir ++ [name ++ ".tmp"]) = some (.file data))
    (free : fs.node? (dir ++ [name]) ≠ some .directory) {left : FileSystem}
    (renamed : fs.rename (Path.sibling path ".tmp") path = .ok left) : left.read path = .ok data := by
  have ne := (name_ne_new name).symm
  have source : fs.node? (dir ++ [name ++ ".tmp"]) ≠ some .directory := by simp [node]
  rw [h.leadsNew.rename_eq_move h.leads h.fitsNew h.fits ne node free] at renamed
  cases renamed
  refine (h.leads.moveNode source free).read_eq_ok h.fits ?_
  exact (node?_moveNode_child_target ne).trans node

end Beside

/-! ## Half replaced -/

/-- There is nothing at the path. The former file is the backup, and the new one does not have its
name yet. -/
structure HalfReplaced (fs : FileSystem) (path : String) (old data : ByteArray) : Prop where
  missing : fs.read path = .error .notFound
  backup : fs.read (Path.sibling path ".bak") = .ok old
  new : fs.read (Path.sibling path ".tmp") = .ok data

section Replacing

open Beside

variable {fs : FileSystem} {path : String} {dir : Location} {name : String} {old data : ByteArray}

/-- Without a directory in its way, the backup leaves the path half replaced. -/
theorem Beside.halfReplaced (h : Beside fs path dir name)
    (node : fs.node? (dir ++ [name]) = some (.file old))
    (new : fs.node? (dir ++ [name ++ ".tmp"]) = some (.file data))
    (free : fs.node? (dir ++ [name ++ ".bak"]) ≠ some .directory) :
    HalfReplaced (backedUp path (Path.sibling path ".bak") fs) path old data := by
  have source : fs.node? (dir ++ [name]) ≠ some .directory := by simp [node]
  have after := h.moveNode source free
  rw [h.backedUp_eq_move node free]
  constructor
  · exact after.leads.read_eq_notFound after.fits (node?_moveNode_child_source (name_ne_backup name))
  · refine after.leadsBackup.read_eq_ok after.fitsBackup ?_
    exact (node?_moveNode_child_target (name_ne_backup name)).trans node
  · refine after.leadsNew.read_eq_ok after.fitsNew ?_
    exact (node?_moveNode_child (name_ne_new name) (new_ne_backup name).symm).trans new

/-- What a crash leaves of a file in a directory. -/
theorem read_of_leaves (leads : fs.Leads path dir name) (fits : Fits path name)
    (node : fs.node? (dir ++ [name]) = some (.file old)) {left : FileSystem}
    (h : (atomicWrite path data).Leaves fs left) :
    left.read path = .ok old ∨ left.read path = .ok data ∨
      HalfReplaced left path old data ∧
        (∃ written, fs.write (Path.sibling path ".tmp") data = .ok written) ∧
          fs.find (Path.sibling path ".bak") ≠ .ok .directory := by
  -- Whatever is written beside the former file, that is still at the path.
  have keeps {bytes : ByteArray} {written : FileSystem}
      (wrote : fs.write (Path.sibling path ".tmp") bytes = .ok written) :
      written.read path = .ok old := by
    obtain ⟨after, former, -⟩ := (Beside.of_write leads fits wrote).write wrote
    exact after.leads.read_eq_ok fits (former.trans node)
  rcases leaves_atomicWrite_iff.mp h with rfl | ⟨n, torn⟩ | ⟨written, wrote, rest⟩
  · exact .inl (leads.read_eq_ok fits node)
  · exact .inl (keeps torn)
  · have before := Beside.of_write leads fits wrote
    obtain ⟨after, former, new, backup⟩ := before.write wrote
    rw [node] at former
    have source : written.node? (dir ++ [name]) ≠ some .directory := by simp [former]
    by_cases taken : fs.node? (dir ++ [name ++ ".bak"]) = some .directory
    · -- The former file stays until the new one takes its place.
      rw [after.backedUp_of_directory former (backup.trans taken)] at rest
      rcases rest with rfl | rfl | renamed
      · exact .inl (keeps wrote)
      · exact .inl (keeps wrote)
      · exact .inr (.inl (after.read_of_rename new source renamed))
    · have free : written.node? (dir ++ [name ++ ".bak"]) ≠ some .directory := backup ▸ taken
      rcases rest with rfl | rfl | renamed
      · exact .inl (keeps wrote)
      · refine .inr (.inr ⟨after.halfReplaced former new free, ⟨written, wrote⟩, ?_⟩)
        rwa [ne_eq, before.leadsBackup.find_eq_ok_iff before.fitsBackup]
      · rw [after.backedUp_eq_move former free] at renamed
        refine .inr (.inl ((after.moveNode source free).read_of_rename ?_ ?_ renamed))
        · exact (node?_moveNode_child (name_ne_new name) (new_ne_backup name).symm).trans new
        · simp [node?_moveNode_child_source (name_ne_backup name)]

/-- By a path that ends by going up to a file, the file is never replaced. -/
theorem eq_of_leaves_up (data : ByteArray) {above : List String} (up : Path.names path = above ++ [".."])
    {loc : Location} (reached : fs.walk (fs.startOf path) (Path.names path) = .ok loc)
    (node : fs.node? loc = some (.file old)) :
    (∀ written, fs.write (Path.sibling path ".tmp") data ≠ .ok written) ∧
      ∀ left, (atomicWrite path data).Leaves fs left → left = fs := by
  have never (bytes : ByteArray) (written : FileSystem) :
      fs.write (Path.sibling path ".tmp") bytes ≠ .ok written := by
    have lost := target_sibling_up up reached node (by decide : '/' ∉ ".tmp".toList) (by decide)
    unfold FileSystem.write
    split
    · simp
    · exact absurd ‹_› (lost _)
  refine ⟨never data, fun left leaves => ?_⟩
  -- The new file cannot even be begun.
  rcases leaves_atomicWrite_iff.mp leaves with start | ⟨n, torn⟩ | ⟨written, wrote, -⟩
  · exact start
  · exact absurd torn (never _ _)
  · exact absurd wrote (never _ _)

end Replacing

/-- A crash while the file at a path is replaced leaves the former file there, or the new one, or
the path half replaced, with both files beside it. The last can happen, and then the path looks as
if nothing had ever been saved, unless the new file cannot be written or a directory is in the way
of the backup. -/
theorem crash_while_replacing {fs : FileSystem} {path : String} {old : ByteArray}
    (h : fs.read path = .ok old) (data : ByteArray) :
    (∀ left, (atomicWrite path data).Leaves fs left →
      left.read path = .ok old ∨ left.read path = .ok data ∨ HalfReplaced left path old data) ∧
    ((∃ left, (atomicWrite path data).Leaves fs left ∧ ((load path).run left).1 = .ok none) ↔
      (∃ written, fs.write (Path.sibling path ".tmp") data = .ok written) ∧
        fs.find (Path.sibling path ".bak") ≠ .ok .directory) := by
  simp only [load_eq_none_iff]
  -- The path stands for a name in a directory, or it ends by going up.
  rcases exists_leads_of_read h with ⟨dir, name, leads, fits, node⟩ | ⟨above, loc, up, reached, node⟩
  · refine ⟨fun left leaves => ?_, ?_, ?_⟩
    · exact (read_of_leaves leads fits node leaves).imp_right fun other => other.imp_right And.left
    · rintro ⟨left, leaves, missing⟩
      rcases read_of_leaves leads fits node leaves with same | new | ⟨-, possible⟩
      · cases missing.symm.trans same
      · cases missing.symm.trans new
      · exact possible
    · rintro ⟨⟨written, wrote⟩, free⟩
      have before := Beside.of_write leads fits wrote
      obtain ⟨after, former, new, backup⟩ := before.write wrote
      refine ⟨_, leaves_atomicWrite_iff.mpr (.inr (.inr ⟨written, wrote, .inr (.inl rfl)⟩)), ?_⟩
      refine (after.halfReplaced (former.trans node) new ?_).missing
      rwa [backup, ne_eq, ← before.leadsBackup.find_eq_ok_iff before.fitsBackup]
  · obtain ⟨never, only⟩ := eq_of_leaves_up data up reached node
    refine ⟨fun left leaves => .inl (only left leaves ▸ h), ?_, ?_⟩
    · rintro ⟨left, leaves, missing⟩
      rw [only left leaves, h] at missing
      cases missing
    · rintro ⟨⟨written, wrote⟩, -⟩
      exact absurd wrote (never written)

/-- A directory with a saved script. -/
def savedScript : FileSystem where
  nodes := [(["home"], .directory), (["home", "script.thtm"], .file "line 1 1".toUTF8)]
  current := ["home"]

/-- The saved script can be replaced, so a crash on the way can lose it. -/
theorem savedScript_may_be_missed :
    savedScript.read "script.thtm" = .ok "line 1 1".toUTF8 ∧
      ∃ left, (atomicWrite "script.thtm" "line 2 2".toUTF8).Leaves savedScript left ∧
        ((load "script.thtm").run left).1 = .ok none := by
  have saved : savedScript.read "script.thtm" = .ok "line 1 1".toUTF8 := rfl
  have free : savedScript.find (Path.sibling "script.thtm" ".bak") ≠ .ok .directory := by
    intro taken
    cases taken
  exact ⟨saved, (crash_while_replacing saved _).2.mpr ⟨⟨_, rfl⟩, free⟩⟩

/-- When the script is saved once more as it is, there is nothing at its path between the two
renames, and loading says that nothing was saved. -/
theorem savedScript_missing_between_renames :
    savedScript.read "script.thtm" = .ok "line 1 1".toUTF8 ∧
      ∃ left ∈ (atomicWrite "script.thtm" "line 1 1".toUTF8).states savedScript,
        left.read "script.thtm" = .error .notFound ∧
          ((load "script.thtm").run left).1 = .ok none := by
  refine ⟨rfl, ⟨[(["home", "script.thtm.tmp"], .file "line 1 1".toUTF8), (["home"], .directory),
    (["home", "script.thtm.bak"], .file "line 1 1".toUTF8)], ["home"]⟩, ?_, rfl, rfl⟩
  -- The states are the start, after writing, after looking whether there is a former file, and
  -- after its rename.
  exact List.mem_of_getElem? (i := 3) rfl

end Linework
