import Linework.Proofs.Storage.Directories

/-!
# `Linework.Proofs.Storage.Rooted`: directories stay above their nodes

A node is put into a directory, and one that is moved takes with it all that is below. So every
node still lies in a directory after any operation, and after any program (`Rooted.run`). That
holds whether the operations succeed or not.

Two things could spoil it. A directory could be replaced by a file, with nodes still below it, or a
node could be moved below itself. The system refuses both: `Movable` says what it has looked at
before a rename goes well (`eq_or_movable_of_rename`).
-/

set_option autoImplicit false

namespace Linework.FileSystem

/-! ## Below a location -/

section Below

variable {fs : FileSystem} {loc : Location}

/-- Nothing is below a directory without children. -/
theorem node?_below_of_hasChildren_eq_false (h : fs.hasChildren loc = false) {rest : Location}
    (ne : rest ≠ []) : fs.node? (loc ++ rest) = none := by
  rw [node?_of_ne_root (by simp [ne]), List.lookup_eq_none_iff]
  intro entry among
  have alone := List.any_eq_false.mp h entry among
  simp only [Bool.and_eq_true, decide_eq_true_eq, List.isPrefixOf_iff_prefix, not_and] at alone
  rw [bne_iff_ne]
  intro same
  exact alone (by simp [← same, ne]) ⟨rest, same⟩

/-- What has a node below it is a directory. -/
theorem Rooted.directory_of_below (h : fs.Rooted) {rest : Location} (ne : rest ≠ [])
    (present : fs.node? (loc ++ rest) ≠ none) : fs.node? loc = some .directory := by
  obtain ⟨above, name, rfl⟩ := List.eq_nil_or_concat rest |>.resolve_left ne
  rw [List.concat_eq_append, ← List.append_assoc] at present
  -- What is right above the node is a directory, and so is everything on the way to it.
  exact h.directory_of_prefix (List.prefix_append loc above) (h _ _ present)

/-- Nothing is below a file. -/
theorem Rooted.node?_below_file (h : fs.Rooted) {data : ByteArray}
    (node : fs.node? loc = some (.file data)) {rest : Location} (ne : rest ≠ []) :
    fs.node? (loc ++ rest) = none := by
  by_contra present
  cases node.symm.trans (h.directory_of_below ne present)

end Below

/-! ## Moving a node with all that is below it -/

/-- The node at one location can be moved to another. Neither is below the other, and a directory
that is replaced is empty and replaced by a directory. -/
structure Movable (fs : FileSystem) (source target : Location) : Prop where
  present : fs.node? source ≠ none
  below : ¬ source <+: target
  above : ¬ target <+: source
  empty : fs.node? target = some .directory →
    fs.node? source = some .directory ∧ fs.hasChildren target = false

namespace Movable

variable {fs : FileSystem} {source target : Location}

/-- The root is never moved, since everything is below it. -/
theorem source_ne_root (h : fs.Movable source target) : source ≠ [] := by
  rintro rfl
  exact h.below List.nil_prefix

/-- Nothing takes the place of the root. -/
theorem target_ne_root (h : fs.Movable source target) : target ≠ [] := by
  rintro rfl
  exact h.above List.nil_prefix

/-- Nothing is lost below the location that the node is moved to. -/
theorem node?_below_target (h : fs.Movable source target) (rooted : fs.Rooted) {rest : Location}
    (ne : rest ≠ []) : fs.node? (target ++ rest) = none := by
  by_cases directory : fs.node? target = some .directory
  · exact node?_below_of_hasChildren_eq_false (h.empty directory).2 ne
  · by_contra present
    exact directory (rooted.directory_of_below ne present)

/-- What was at or below the old location is at or below the new one. -/
theorem node?_moveNode_target_append (h : fs.Movable source target) (rooted : fs.Rooted)
    (rest : Location) :
    (fs.moveNode source target).node? (target ++ rest) = fs.node? (source ++ rest) := by
  have other : source ++ rest ≠ target := fun same => h.below ⟨rest, same⟩
  rw [node?_of_ne_root (by simp [h.target_ne_root]), node?_of_ne_root (by simp [h.source_ne_root]),
    ← lookup_filter_of_ne other]
  refine lookup_map_fst fun entry among => ?_
  obtain ⟨among, others⟩ := List.mem_filter.mp among
  by_cases moved : source <+: entry.1
  · obtain ⟨tail, same⟩ := moved
    rw [← same, relocate_append, List.append_cancel_left_eq, List.append_cancel_left_eq]
  · -- A node that is not moved is neither below the one location nor below the other.
    rw [relocate_of_apart moved]
    refine iff_of_false (fun same => ?_) fun same => moved ⟨rest, same.symm⟩
    have ne : rest ≠ [] := by
      rintro rfl
      simp [same] at others
    have none := h.node?_below_target rooted ne
    rw [node?_of_ne_root (by simp [ne]), List.lookup_eq_none_iff] at none
    simpa [same] using none entry among

/-- Nothing is left at the old location or below it. -/
theorem node?_moveNode_source_append (h : fs.Movable source target) (rest : Location) :
    (fs.moveNode source target).node? (source ++ rest) = none := by
  rw [node?_of_ne_root (by simp [h.source_ne_root]), List.lookup_eq_none_iff]
  intro entry among
  obtain ⟨former, -, rfl⟩ := List.mem_map.mp among
  rw [bne_iff_ne]
  intro same
  -- A node that came to be there would put one location below the other, or has not been moved.
  by_cases moved : source <+: former.1
  · obtain ⟨tail, split⟩ := moved
    simp only [← split, relocate_append] at same
    rcases List.prefix_or_prefix_of_prefix ⟨rest, same⟩ ⟨tail, rfl⟩ with below | above
    · exact h.below below
    · exact h.above above
  · simp only [relocate_of_apart moved] at same
    exact moved ⟨rest, same⟩

end Movable

/-! ## One operation -/

namespace Rooted

variable {fs after : FileSystem}

/-- A node may be put into a directory, though not in place of one. -/
theorem putNode (h : fs.Rooted) {dir : Location} {name : String} {node : Node}
    (directory : fs.node? dir = some .directory)
    (free : fs.node? (dir ++ [name]) ≠ some .directory) :
    (fs.putNode (dir ++ [name]) node).Rooted := by
  intro above last present
  by_cases new : above ++ [last] = dir ++ [name]
  · obtain ⟨rfl, -⟩ := List.append_inj' new rfl
    rwa [node?_putNode_of_ne (by simp)]
  · rw [node?_putNode_of_ne new] at present
    have parent := h above last present
    -- The place was no directory, so it is not what the node lies in.
    have other : above ≠ dir ++ [name] := by
      rintro rfl
      exact free parent
    rwa [node?_putNode_of_ne other]

/-- A node may be moved into a directory. -/
theorem moveNode (h : fs.Rooted) {source dir : Location} {name : String}
    (movable : fs.Movable source (dir ++ [name])) (directory : fs.node? dir = some .directory) :
    (fs.moveNode source (dir ++ [name])).Rooted := by
  intro above last present
  by_cases moved : dir ++ [name] <+: above ++ [last]
  · rcases List.prefix_concat_iff.mp moved with same | ⟨rest, rfl⟩
    · -- The moved node itself lies in the directory that it was moved to.
      obtain ⟨rfl, -⟩ := List.append_inj' same rfl
      have away : ¬ source <+: dir := fun below =>
        movable.below (below.trans (List.prefix_append _ _))
      rwa [node?_moveNode_of_apart away fun below => absurd below.length_le (by simp)]
    -- Further down, the nodes lie in each other as they did at the old place.
    · rw [List.append_assoc, movable.node?_moveNode_target_append h, ← List.append_assoc] at present
      rw [movable.node?_moveNode_target_append h]
      exact h _ _ present
  · by_cases left : source <+: above ++ [last]
    -- At the old place there is nothing any more.
    · obtain ⟨rest, same⟩ := left
      rw [← same, movable.node?_moveNode_source_append] at present
      exact absurd rfl present
    · rw [node?_moveNode_of_apart left moved] at present
      have longer := List.prefix_append above [last]
      rw [node?_moveNode_of_apart (fun below => left (below.trans longer)) fun below =>
        moved (below.trans longer)]
      exact h above last present

end Rooted

/-- A directory that was made was put where nothing was. -/
theorem exists_of_makeDirectory {fs after : FileSystem} {path : String}
    (h : fs.makeDirectory path = .ok after) :
    ∃ t loc, fs.target path = .ok t ∧ t.location? = some loc ∧ fs.node? loc = none ∧
      after = fs.putNode loc .directory := by
  unfold makeDirectory at h
  split at h
  · cases h
  rename_i t found
  split at h
  · cases h
  rename_i loc located
  split at h
  · cases h
  rename_i free
  exact ⟨t, loc, found, located, free, (Except.ok.inj h).symm⟩

/-- A target lies in a directory. -/
theorem exists_eq_of_location? {fs : FileSystem} {path : String} {t : Target} {loc : Location}
    (found : fs.target path = .ok t) (located : t.location? = some loc) :
    ∃ name, loc = t.directory ++ [name] ∧ fs.node? t.directory = some .directory := by
  obtain ⟨-, -, dir, -, directory, rfl⟩ := target_eq_ok_iff.mp found
  obtain ⟨name, -, rfl⟩ := Option.map_eq_some_iff.mp located
  exact ⟨name, rfl, directory⟩

/-- The check for what is below a location misses only the location itself. -/
theorem not_prefix_of_isBelow_eq_false {loc above : Location} (ne : loc ≠ above)
    (h : isBelow loc above = false) : ¬ above <+: loc := by
  intro below
  rw [isBelow, List.isPrefixOf_iff_prefix.mpr below] at h
  simp [ne] at h

/-- A rename that goes well has moved a node, unless both paths stand for the same. -/
theorem eq_or_movable_of_rename {fs after : FileSystem} {source target : String}
    (h : fs.rename source target = .ok after) :
    after = fs ∨ ∃ s t place place', fs.target source = .ok s ∧ fs.target target = .ok t ∧
      s.location? = some place ∧ t.location? = some place' ∧ fs.Movable place place' ∧
      after = fs.moveNode place place' := by
  obtain ⟨s, t, place, place', node, found, found', located, located', there, -, moved⟩ :=
    exists_of_rename h
  by_cases same : place = place'
  · subst same
    refine .inl ?_
    cases node <;> simp only [renameNode, there, if_true, Except.ok.injEq] at moved <;> rw [← moved]
  · refine .inr ⟨s, t, place, place', found, found', located, located', ?_, ?_⟩
    -- The checks that the rename has passed are what makes the node movable.
    · simp only [rename, found, found', located, located', there] at h
      split_ifs at h with slashed below above
      rw [Bool.not_eq_true] at below above
      refine ⟨by simp [there], not_prefix_of_isBelow_eq_false (Ne.symm same) below,
        not_prefix_of_isBelow_eq_false same above, fun directory => ?_⟩
      cases node with
      | file data => simp [renameNode, there, directory] at moved
      | directory =>
        refine ⟨there, ?_⟩
        simp only [renameNode, there, directory, same, if_false] at moved
        split_ifs at moved with children
        simpa using children
    · exact (renameNode_eq_ok same moved).1

namespace Rooted

variable {fs after : FileSystem} {path source target : String} {data : ByteArray}

/-- A file is written in a directory, and never over one. -/
theorem write (h : fs.Rooted) (wrote : fs.write path data = .ok after) : after.Rooted := by
  obtain ⟨t, loc, found, located, free, rfl⟩ := exists_of_write wrote
  obtain ⟨name, rfl, directory⟩ := exists_eq_of_location? found located
  exact h.putNode directory free

/-- A directory is made in another one. -/
theorem makeDirectory (h : fs.Rooted) (made : fs.makeDirectory path = .ok after) :
    after.Rooted := by
  obtain ⟨t, loc, found, located, free, rfl⟩ := exists_of_makeDirectory made
  obtain ⟨name, rfl, directory⟩ := exists_eq_of_location? found located
  exact h.putNode directory (by simp [free])

/-- A rename moves a node into a directory, or nothing at all. -/
theorem rename (h : fs.Rooted) (renamed : fs.rename source target = .ok after) :
    after.Rooted := by
  rcases eq_or_movable_of_rename renamed with
    rfl | ⟨s, t, place, place', -, found, -, located, movable, rfl⟩
  · exact h
  · obtain ⟨name, rfl, directory⟩ := exists_eq_of_location? found located
    exact h.moveNode movable directory

/-! ## A program -/

/-- If an operation keeps the nodes in directories whenever it goes well, it always does. -/
theorem answer (h : fs.Rooted) {result : Except OsError FileSystem}
    (went : ∀ after, result = .ok after → after.Rooted) :
    (FileProgram.answer fs result).2.Rooted := by
  cases result with
  | ok after => exact went after rfl
  | error e => exact h

/-- Whatever a program does, every node lies in a directory afterwards. -/
theorem run {α : Type} (h : fs.Rooted) (p : FileProgram α) : (p.run fs).2.Rooted := by
  -- An operation that fails leaves the files alone, so only those that succeed count.
  induction p generalizing fs with
  | done value => exact h
  | inspect path next ih => exact ih _ h
  | read path next ih => exact ih _ h
  | write path data next ih => exact ih _ (h.answer fun after wrote => h.write wrote)
  | makeDirectory path next ih => exact ih _ (h.answer fun after made => h.makeDirectory made)
  | rename source target next ih => exact ih _ (h.answer fun after renamed => h.rename renamed)

/-- The same for a run whose result is known. -/
theorem of_run {α : Type} {p : FileProgram α} {value : α} (h : fs.Rooted)
    (ran : p.run fs = (value, after)) : after.Rooted := by
  have rooted := h.run p
  rwa [ran] at rooted

end Rooted

end Linework.FileSystem
