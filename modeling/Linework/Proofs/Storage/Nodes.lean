import Linework.Storage.FileSystem
import Mathlib.Data.List.Basic

/-!
# `Linework.Proofs.Storage.Nodes`: what a change of files leaves alone

Putting a node at a location changes what is there and nothing else. Moving one changes what is
at or below its old location and its new one. `AgreesOff` says that of two file systems: they
hold the same everywhere but at and below a few hidden locations.

A path is followed from directory to directory. If there is no directory at any hidden location,
a path cannot get past one from either side, so a path that leads to a place in the open never
was below a hidden one, and it leads to the same place after the change (`walk_of_agreesOff`).
Nothing is assumed here about the directories above a node.
-/

set_option autoImplicit false

namespace Linework.FileSystem

/-! ## Looking up -/

section Lookup

variable {nodes : List (Location × Node)} {hidden loc former : Location}

/-- What is at other locations is found without the hidden one. -/
theorem lookup_filter_of_ne (h : loc ≠ hidden) :
    (nodes.filter fun entry => entry.1 ≠ hidden).lookup loc = nodes.lookup loc := by
  induction nodes with
  | nil => rfl
  | cons entry rest ih =>
    rw [List.filter_cons]
    -- An entry that is taken out is not the one looked for.
    split
    · rw [List.lookup_cons, List.lookup_cons, ih]
    · rename_i gone
      have gone : entry.1 = hidden := by simpa using gone
      have other : (loc == entry.1) = false := beq_eq_false_iff_ne.mpr (gone ▸ h)
      rw [List.lookup_cons, other, ih]

/-- Looking up where every entry has been moved, at a location that exactly one location is moved
to. -/
theorem lookup_map_fst {move : Location → Location}
    (h : ∀ entry ∈ nodes, move entry.1 = loc ↔ entry.1 = former) :
    (nodes.map fun entry => (move entry.1, entry.2)).lookup loc = nodes.lookup former := by
  induction nodes with
  | nil => rfl
  | cons entry rest ih =>
    obtain ⟨here, others⟩ := List.forall_mem_cons.mp h
    have same : (loc == move entry.1) = (former == entry.1) := by
      rw [Bool.eq_iff_iff, beq_iff_eq, beq_iff_eq, eq_comm, here, eq_comm]
    rw [List.map_cons, List.lookup_cons, List.lookup_cons, same, ih others]

end Lookup

/-! ## Moving -/

section Relocate

variable {source target loc : Location}

/-- What is below the old location is moved along. -/
theorem relocate_append (rest : Location) :
    relocate source target (source ++ rest) = target ++ rest := by
  simp [relocate, List.isPrefixOf_iff_prefix]

/-- What is not stays where it is. -/
theorem relocate_of_apart (h : ¬ source <+: loc) : relocate source target loc = loc := by
  simp [relocate, List.isPrefixOf_iff_prefix, h]

/-- Only the old location is moved to the new one. -/
theorem relocate_eq_target_iff (ne : loc ≠ target) :
    relocate source target loc = target ↔ loc = source := by
  by_cases below : source <+: loc
  · obtain ⟨rest, rfl⟩ := below
    simp [relocate_append]
  · have other : loc ≠ source := fun same => below (same ▸ List.prefix_refl loc)
    simp [relocate_of_apart below, ne, other]

/-- Nothing is moved to the old location. -/
theorem relocate_ne_source (apart : ¬ target <+: source) :
    relocate source target loc ≠ source := by
  intro moved
  by_cases below : source <+: loc
  · obtain ⟨rest, rfl⟩ := below
    rw [relocate_append] at moved
    exact apart ⟨rest, moved⟩
  · rw [relocate_of_apart below] at moved
    exact below (moved ▸ List.prefix_refl loc)

/-- Away from both locations nothing is moved. -/
theorem relocate_eq_iff_of_apart (other : Location) (away : ¬ source <+: loc)
    (away' : ¬ target <+: loc) : relocate source target other = loc ↔ other = loc := by
  -- What is moved ends below the new location, and is not the one in question before or after.
  by_cases below : source <+: other
  · obtain ⟨rest, rfl⟩ := below
    rw [relocate_append]
    constructor
    · exact fun moved => absurd ⟨rest, moved⟩ away'
    · exact fun same => absurd ⟨rest, same⟩ away
  · rw [relocate_of_apart below]

end Relocate

/-! ## One operation -/

section Operations

variable {fs : FileSystem} {loc source target : Location} {node : Node}

/-- Below the root a node is looked up. -/
theorem node?_of_ne_root (h : loc ≠ []) : fs.node? loc = fs.nodes.lookup loc := if_neg h

/-- A node is found where it is put. -/
theorem node?_putNode_self (h : loc ≠ []) : (fs.putNode loc node).node? loc = some node := by
  rw [node?_of_ne_root h]
  exact List.lookup_cons_self

/-- Everywhere else nothing changes. -/
theorem node?_putNode_of_ne (h : loc ≠ target) :
    (fs.putNode target node).node? loc = fs.node? loc := by
  by_cases root : loc = []
  · rw [root]
    rfl
  · have other : (loc == target) = false := beq_eq_false_iff_ne.mpr h
    rw [node?_of_ne_root root, node?_of_ne_root root, putNode, List.lookup_cons, other]
    exact lookup_filter_of_ne h

/-- What was at the old location is at the new one. -/
theorem node?_moveNode_target (hs : source ≠ []) (ht : target ≠ []) (ne : source ≠ target) :
    (fs.moveNode source target).node? target = fs.node? source := by
  rw [node?_of_ne_root ht, node?_of_ne_root hs, ← lookup_filter_of_ne ne]
  refine lookup_map_fst fun entry among => relocate_eq_target_iff ?_
  -- What was at the new location before has been removed, so nothing else can be found there.
  simpa using (List.mem_filter.mp among).2

/-- Nothing is left at the old location. -/
theorem node?_moveNode_source (hs : source ≠ []) (apart : ¬ target <+: source) :
    (fs.moveNode source target).node? source = none := by
  rw [node?_of_ne_root hs, List.lookup_eq_none_iff]
  intro entry among
  obtain ⟨former, -, rfl⟩ := List.mem_map.mp among
  simpa using (relocate_ne_source apart).symm

/-- Nothing changes away from both locations. -/
theorem node?_moveNode_of_apart (away : ¬ source <+: loc) (away' : ¬ target <+: loc) :
    (fs.moveNode source target).node? loc = fs.node? loc := by
  by_cases root : loc = []
  · rw [root]
    rfl
  · have ne : loc ≠ target := fun same => away' (same ▸ List.prefix_refl loc)
    rw [node?_of_ne_root root, node?_of_ne_root root]
    have moved (entry) (_ : entry ∈ (fs.removeNode target).nodes) :=
      relocate_eq_iff_of_apart entry.1 away away'
    exact (lookup_map_fst moved).trans (lookup_filter_of_ne ne)

end Operations

/-! ## Paths that do not notice -/

/-- The location is at or below one of several. -/
def Under (hidden : List Location) (loc : Location) : Prop := ∃ h ∈ hidden, h <+: loc

/-- The file systems hold the same everywhere but under a few locations. -/
structure AgreesOff (hidden : List Location) (fs after : FileSystem) : Prop where
  current : after.current = fs.current
  node : ∀ loc, ¬ Under hidden loc → after.node? loc = fs.node? loc

/-- More locations may be left out. -/
theorem AgreesOff.mono {hidden hidden' : List Location} {fs after : FileSystem}
    (h : AgreesOff hidden fs after) (more : hidden ⊆ hidden') : AgreesOff hidden' fs after where
  current := h.current
  node loc visible := h.node loc fun ⟨above, among, below⟩ => visible ⟨above, more among, below⟩

/-- Two changes in a row keep what neither of them touches. -/
theorem AgreesOff.trans {hidden : List Location} {fs middle after : FileSystem}
    (h : AgreesOff hidden fs middle) (h' : AgreesOff hidden middle after) :
    AgreesOff hidden fs after where
  current := h'.current.trans h.current
  node loc visible := (h'.node loc visible).trans (h.node loc visible)

/-- A node that is put changes nothing but its location. -/
theorem agreesOff_putNode (fs : FileSystem) (loc : Location) (node : Node) :
    AgreesOff [loc] fs (fs.putNode loc node) where
  current := rfl
  node other h := node?_putNode_of_ne fun same => h ⟨loc, by simp, same ▸ List.prefix_refl _⟩

/-- A move changes nothing but its two locations. -/
theorem agreesOff_moveNode (fs : FileSystem) (source target : Location) :
    AgreesOff [source, target] fs (fs.moveNode source target) where
  current := rfl
  node loc h := node?_moveNode_of_apart (fun below => h ⟨source, by simp, below⟩)
    fun below => h ⟨target, by simp, below⟩

section Walk

variable {fs : FileSystem}

/-- The first step of a path begins in a directory, and the others go on from where it leads. -/
theorem walk_cons_iff {loc stop : Location} {name : String} {rest : List String} :
    fs.walk loc (name :: rest) = .ok stop ↔
      fs.node? loc = some .directory ∧ ∃ next, enter loc name = .ok next ∧ fs.walk next rest = .ok stop := by
  rw [walk]
  cases fs.node? loc with
  | none => simp
  | some node =>
    cases node with
    | file data => simp
    | directory => cases enter loc name <;> simp

/-- A path in two parts leads where the second leads from the end of the first. -/
theorem walk_append_iff {loc stop : Location} {first rest : List String} :
    fs.walk loc (first ++ rest) = .ok stop ↔
      ∃ middle, fs.walk loc first = .ok middle ∧ fs.walk middle rest = .ok stop := by
  induction first generalizing loc with
  | nil => simp [walk]
  | cons name first ih =>
    simp only [List.cons_append, walk_cons_iff, ih]
    constructor
    · rintro ⟨dir, next, entered, middle, reached, rest⟩
      exact ⟨middle, ⟨dir, next, entered, reached⟩, rest⟩
    · rintro ⟨middle, ⟨dir, next, entered, reached⟩, rest⟩
      exact ⟨dir, next, entered, middle, reached, rest⟩

/-- One step from strictly below a location does not leave it. -/
theorem prefix_of_enter {above loc next : Location} {name : String} (below : above <+: loc)
    (ne : above ≠ loc) (h : enter loc name = .ok next) : above <+: next := by
  obtain ⟨rest, rfl⟩ := below
  have ne : rest ≠ [] := by
    rintro rfl
    simp at ne
  simp only [enter] at h
  split_ifs at h with idle up
  · cases h
    exact List.prefix_append _ _
  · -- Going up from strictly below ends at the location at the highest.
    cases h
    rw [List.dropLast_append_of_ne_nil ne]
    exact List.prefix_append _ _
  · cases h
    rw [List.append_assoc]
    exact List.prefix_append _ _

/-- A path that begins under a location without a directory ends under it. -/
theorem under_of_walk {hidden : List Location}
    (closed : ∀ loc ∈ hidden, fs.node? loc ≠ some .directory) {loc stop : Location}
    {names : List String} (h : fs.walk loc names = .ok stop) (under : Under hidden loc) :
    Under hidden stop := by
  -- The induction is on the names of the path, none of which leads out.
  induction names generalizing loc with
  | nil =>
    cases h
    exact under
  | cons name rest ih =>
    obtain ⟨dir, next, entered, others⟩ := walk_cons_iff.mp h
    obtain ⟨above, among, below⟩ := under
    refine ih others ⟨above, among, prefix_of_enter below ?_ entered⟩
    -- The step begins in a directory, so it does not begin at the location itself.
    rintro rfl
    exact closed _ among dir

/-- A path to a place in the open leads there whatever happens under locations without a
directory. -/
theorem walk_of_agreesOff {hidden : List Location} {after : FileSystem}
    (agrees : AgreesOff hidden fs after) (closed : ∀ loc ∈ hidden, fs.node? loc ≠ some .directory)
    {loc stop : Location} {names : List String} (h : fs.walk loc names = .ok stop)
    (visible : ¬ Under hidden stop) : after.walk loc names = .ok stop := by
  induction names generalizing loc with
  | nil => exact h
  | cons name rest ih =>
    -- From under a hidden location the path would not have come out again.
    have here : ¬ Under hidden loc := fun under => visible (under_of_walk closed h under)
    obtain ⟨dir, next, entered, others⟩ := walk_cons_iff.mp h
    exact walk_cons_iff.mpr ⟨by rw [agrees.node loc here, dir], next, entered, ih others⟩

end Walk

end Linework.FileSystem
