import Linework.Proofs.Text.Cutting
import Linework.Storage.Path
import Mathlib.Data.List.DropRight

/-!
# `Linework.Proofs.Storage.Spelling`: the names of a path beside another

A path is cut at its slashes, so what is known of its spelling is what is known of its names. A
path with an ordinary last name has a sibling for every ending (`names_sibling`): the last name
gets the ending, and of the names before it the idle ones at the end are gone. The siblings of
one path differ in their ending alone (`sibling_eq_append`).

A path that ends by going up has no last name, and its sibling is one name further down
(`names_sibling_up`).
-/

set_option autoImplicit false

namespace Linework

namespace Path

/-! ## Names and slashes -/

/-- Every path has a name, if only an empty one. -/
theorem names_ne_nil (path : String) : names path ≠ [] := Text.pieces_ne_nil '/' path

/-- Paths with a slash between them have the names of both. -/
theorem names_append (base path : String) :
    names (base ++ "/" ++ path) = names base ++ names path := by
  simp [names, Text.pieces, List.splitOn_append_cons_self]

/-- A text without a slash is a name. -/
theorem names_of_no_slash {name : String} (h : '/' ∉ name.toList) : names name = [name] := by
  simp [names, Text.pieces, List.splitOn_eq_singleton h]

/-- Names have no slash in them. -/
theorem no_slash_of_names {path name : String} {above below : List String}
    (h : names path = above ++ name :: below) : '/' ∉ name.toList :=
  Text.not_mem_of_mem_pieces (h ▸ List.mem_append_right above List.mem_cons_self : name ∈ names path)

/-- Names that are put together can be had back. -/
theorem names_intercalate {ns : List String} (ne : ns ≠ []) (h : ∀ n ∈ ns, '/' ∉ n.toList) :
    names ("/".intercalate ns) = ns :=
  Text.pieces_intercalate ne h

/-- The names of a path that begins with a slash are the root and others. -/
theorem isAbsolute_iff (path : String) :
    isAbsolute path = true ↔ ∃ rest, rest ≠ [] ∧ names path = "" :: rest := by
  constructor
  · intro h
    -- Whatever follows the slash is a path of its own, and the name before it is empty.
    obtain ⟨cs, hcs⟩ := List.isPrefixOf_iff_prefix.mp h
    refine ⟨names (String.ofList cs), names_ne_nil _, ?_⟩
    have : path = "" ++ "/" ++ String.ofList cs := by
      apply String.toList_inj.mp
      simp [← hcs]
    rw [this, names_append]
    rfl
  · rintro ⟨rest, hne, h⟩
    obtain ⟨name, others, rfl⟩ := List.exists_cons_of_ne_nil hne
    have := Text.intercalate_pieces '/' path
    change (String.singleton '/').intercalate (names path) = path at this
    rw [h, String.intercalate_cons_cons] at this
    rw [isAbsolute, Text.hasHead, List.isPrefixOf_iff_prefix, ← this]
    simp

/-- A path that ends in a slash has an empty name at its end. -/
theorem names_of_endsInSlash {path : String} (h : endsInSlash path = true) :
    ∃ above, above ≠ [] ∧ names path = above ++ [""] := by
  have h : path.toList.getLast? = some '/' := by simpa [endsInSlash] using h
  obtain ⟨cs, hcs⟩ := List.getLast?_eq_some_iff.mp h
  refine ⟨names (String.ofList cs), names_ne_nil _, ?_⟩
  have : path = String.ofList cs ++ "/" ++ "" := by
    apply String.toList_inj.mp
    simp [hcs]
  rw [this, names_append]
  rfl

/-- A name alone is looked up in the working directory. -/
theorem isAbsolute_of_no_slash {name : String} (h : '/' ∉ name.toList) : isAbsolute name = false := by
  rw [← Bool.not_eq_true, isAbsolute_iff, names_of_no_slash h]
  simp [eq_comm]

/-- A path with a last name does not end in a slash. -/
theorem endsInSlash_of_names {path name : String} {above : List String}
    (h : names path = above ++ [name]) (ne : name ≠ "") : endsInSlash path = false := by
  rw [← Bool.not_eq_true]
  intro ends
  obtain ⟨others, -, empty⟩ := names_of_endsInSlash ends
  exact ne (by simpa using List.append_inj_right' (h.symm.trans empty) rfl)

/-! ## The last name -/

/-- A name that is looked up as it is. -/
structure Ordinary (name : String) : Prop where
  not_idle : isIdle name = false
  not_up : name ≠ ".."

/-- The empty name is idle. -/
theorem Ordinary.ne_empty {name : String} (h : Ordinary name) : name ≠ "" := by
  rintro rfl
  exact absurd h.not_idle (by decide)

/-- Only short names are idle or go up. -/
theorem ordinary_of_length {name : String} (h : 2 < name.length) : Ordinary name where
  not_idle := by
    have empty : name ≠ "" := by
      rintro rfl
      exact absurd h (by decide)
    have dot : name ≠ "." := by
      rintro rfl
      exact absurd h (by decide)
    simp [isIdle, empty, dot]
  not_up := by
    rintro rfl
    exact absurd h (by decide)

/-- A name stays ordinary with an ending. -/
theorem Ordinary.append {name : String} (h : Ordinary name) {ending : String}
    (long : 2 ≤ ending.length) : Ordinary (name ++ ending) := by
  refine ordinary_of_length ?_
  have some : name.length ≠ 0 := by simpa using h.ne_empty
  rw [String.length_append]
  omega

/-- The names above the last one, as a sibling has them. -/
def keptAbove : List String → List String
  | [] => []
  | first :: rest => first :: dropIdleEnd rest

/-- A sibling leaves out idle names only. -/
theorem exists_eq_keptAbove_append (above : List String) :
    ∃ idle, above = keptAbove above ++ idle ∧ ∀ name ∈ idle, isIdle name = true := by
  cases above with
  | nil => exact ⟨[], rfl, by simp⟩
  | cons first rest =>
    refine ⟨rest.rtakeWhile isIdle, ?_, fun name => List.mem_rtakeWhile_imp⟩
    exact congrArg (first :: ·) List.rdropWhile_append_rtakeWhile.symm

/-- The last of the names that are kept is not idle. -/
theorem isIdle_of_dropIdleEnd {ns others : List String} {name : String}
    (h : dropIdleEnd ns = others ++ [name]) : isIdle name = false := by
  have kept : ns.rdropWhile isIdle = others ++ [name] := h
  have last := List.rdropWhile_last_not isIdle ns (by simp [kept])
  simpa [kept] using last

section Sibling

variable {path name : String} {above : List String}

/-- The file of a path is called by its last name. -/
theorem fileName?_of_names (h : names path = above ++ [name]) (ordinary : Ordinary name) :
    fileName? path = some name := by
  simp [fileName?, h, List.filter_append, ordinary.not_idle, ordinary.not_up]

/-- The directory of a path is spelled with the names above, but for the idle ones at their
end. -/
theorem parent?_of_names (h : names path = above ++ [name]) (ordinary : Ordinary name) :
    (parent? path).getD "" = if above = [] then "" else spell (keptAbove above) := by
  cases above with
  | nil => simp [parent?, h, dropIdleEnd, ordinary.ne_empty]
  | cons first rest =>
    have kept : dropIdleEnd (rest ++ [name]) = rest ++ [name] :=
      List.rdropWhile_concat_neg isIdle rest name (by simp [ordinary.not_idle])
    simp [parent?, h, kept, keptAbove]

/-- A path in a directory that is spelled without idle names at its end. -/
theorem names_join_spell {first : String} {rest : List String}
    (h : ∀ n ∈ first :: rest, '/' ∉ n.toList) (noSlash : '/' ∉ name.toList) :
    names (join (spell (first :: dropIdleEnd rest)) name) = first :: dropIdleEnd rest ++ [name] := by
  have relative := isAbsolute_of_no_slash noSlash
  by_cases root : first :: dropIdleEnd rest = [""]
  · -- The root ends in a slash already.
    have : names (join "/" name) = names "" ++ names name := by
      rw [← names_append]
      simp [join, relative]
      rfl
    rw [spell, if_pos root, this, root, names_of_no_slash noSlash]
    rfl
  · have spelled : names ("/".intercalate (first :: dropIdleEnd rest)) = first :: dropIdleEnd rest := by
      refine names_intercalate (by simp) fun n among => h n ?_
      exact (List.cons_prefix_cons.mpr ⟨rfl, List.rdropWhile_prefix isIdle rest⟩).subset among
    -- A slash at the end would be an empty last name, and empty names are idle.
    have ends : endsInSlash ("/".intercalate (first :: dropIdleEnd rest)) = false := by
      rw [← Bool.not_eq_true]
      intro ends
      obtain ⟨others, ne, last⟩ := names_of_endsInSlash ends
      obtain ⟨other, others, rfl⟩ := List.exists_cons_of_ne_nil ne
      have kept : dropIdleEnd rest = others ++ [""] := (List.cons.inj (spelled.symm.trans last)).2
      exact absurd (isIdle_of_dropIdleEnd kept) (by decide)
    have ne : "/".intercalate (first :: dropIdleEnd rest) ≠ "" := by
      intro empty
      rw [empty] at spelled
      exact root spelled.symm
    rw [spell, if_neg root, join]
    simp only [relative, ends, ne, decide_false, Bool.or_false, Bool.false_eq_true, if_false]
    rw [names_append, spelled, names_of_no_slash noSlash]

/-- The sibling of a path with an ordinary last name. -/
theorem names_sibling (h : names path = above ++ [name]) (ordinary : Ordinary name)
    {ending : String} (noSlash : '/' ∉ ending.toList) :
    names (sibling path ending) = keptAbove above ++ [name ++ ending] := by
  have inside : '/' ∉ (name ++ ending).toList := by
    simp [no_slash_of_names h, noSlash]
  rw [sibling, withFileName, fileName?_of_names h ordinary]
  simp only [Option.getD_some, parent?_of_names h ordinary]
  -- Without a directory the name stands alone, and otherwise it is joined to those kept.
  cases above with
  | nil =>
    rw [join, isAbsolute_of_no_slash inside]
    simp [keptAbove, names_of_no_slash inside]
  | cons first rest =>
    refine names_join_spell (fun n among => ?_) inside
    obtain ⟨before, after, split⟩ := List.append_of_mem among
    rw [split, List.append_assoc, List.cons_append] at h
    exact no_slash_of_names h

/-- A sibling starts where the path does. -/
theorem isAbsolute_sibling (h : names path = above ++ [name]) (ordinary : Ordinary name)
    {ending : String} (noSlash : '/' ∉ ending.toList) :
    isAbsolute (sibling path ending) = isAbsolute path := by
  rw [Bool.eq_iff_iff, isAbsolute_iff, isAbsolute_iff, h, names_sibling h ordinary noSlash]
  cases above with
  | nil => simp [keptAbove]
  | cons first rest => simp [keptAbove]

/-- Siblings differ in their ending alone. -/
theorem sibling_eq_append (h : names path = above ++ [name]) (ordinary : Ordinary name)
    {ending : String} (noSlash : '/' ∉ ending.toList) :
    sibling path ending = sibling path "" ++ ending := by
  have relative {e : String} (he : '/' ∉ e.toList) : isAbsolute (name ++ e) = false := by
    refine isAbsolute_of_no_slash ?_
    simp [no_slash_of_names h, he]
  simp only [sibling, withFileName, fileName?_of_names h ordinary, Option.getD_some, join,
    relative noSlash, relative (e := "") (by simp)]
  split_ifs <;> simp [String.append_assoc]

/-- The sibling of a path that ends by going up is a name further down. -/
theorem names_sibling_up (h : names path = above ++ [".."]) {ending : String}
    (noSlash : '/' ∉ ending.toList) : names (sibling path ending) = names path ++ [ending] := by
  -- A path that goes up has no file name, so its ending is put below it.
  have up : fileName? path = none := by
    simp [fileName?, h, List.filter_append, isIdle]
  have ends : endsInSlash path = false := endsInSlash_of_names h (by decide)
  have ne : path ≠ "" := by
    rintro rfl
    have : [""] = above ++ [".."] := h
    simp [List.singleton_eq_append_iff] at this
  simp only [sibling, withFileName, up, join, Option.getD_none, String.empty_append,
    isAbsolute_of_no_slash noSlash, ends, ne, decide_false, Bool.or_false, Bool.false_eq_true,
    if_false]
  rw [names_append, names_of_no_slash noSlash]

/-- And so does that of a path that ends by going up. -/
theorem isAbsolute_sibling_up (h : names path = above ++ [".."]) {ending : String}
    (noSlash : '/' ∉ ending.toList) : isAbsolute (sibling path ending) = isAbsolute path := by
  rw [Bool.eq_iff_iff, isAbsolute_iff, isAbsolute_iff, names_sibling_up h noSlash, h]
  cases above with
  | nil => simp
  | cons first rest => simp

end Sibling

end Path

end Linework
