import Linework.Argument.Check
import Linework.Proofs.Json.Fields

/-!
# `Linework.Proofs.Argument.Checked`: what arguments that pass a check are like

A check goes through the parameters one by one and puts the values it finds under their names. If
it finds no problem, every required parameter got a token, and the token had a value of the
parameter's kind (`Param.hasKind_of_coerce`). The value is still there in the end unless a later
parameter goes by the same name (`exists_value_of_checked`).
-/

set_option autoImplicit false

namespace Linework

/-! ## Values under names -/

namespace Arguments

/-- What is found in a list of entries with one more value. -/
theorem lookup_insertEntry (name other : String) (value : ArgValue)
    (entries : List (String × ArgValue)) :
    (insertEntry name value entries).lookup other
      = if other = name then some value else entries.lookup other := by
  induction entries with
  | nil => rw [insertEntry, lookup_entry]
  | cons entry rest ih =>
    obtain ⟨first, former⟩ := entry
    by_cases found : first = name
    · -- The former value of the name is gone.
      rw [insertEntry, if_pos found, found, lookup_entry, lookup_entry]
      split_ifs <;> rfl
    · rw [insertEntry, if_neg found, lookup_entry, lookup_entry, ih]
      split_ifs with here there
      · exact absurd (here.symm.trans there) found
      all_goals rfl

/-- A value inserted under a name is found there, and nothing else changes. -/
theorem get?_insert (args : Arguments) (name other : String) (value : ArgValue) :
    (args.insert name value).get? other = if other = name then some value else args.get? other :=
  lookup_insertEntry name other value args.entries

end Arguments

/-- The value is one that a token can have under a parameter of the kind. -/
def ArgValue.HasKind : ArgValue → ParamKind → Prop
  | text _, .text => True
  | number _, .number => True
  | text value, .choice options => value ∈ options
  | truth _, .truth => True
  | _, _ => False

/-- A token has a value of its parameter's kind, if any. -/
theorem Param.hasKind_of_coerce {p : Param} {token : String} {value : ArgValue}
    (h : p.coerce token = .ok value) : value.HasKind p.kind := by
  obtain ⟨name, kind, fallback⟩ := p
  -- Each kind reads tokens in its own way, and makes values of one constructor.
  cases kind with
  | text =>
    cases h
    exact trivial
  | number =>
    simp only [coerce] at h
    split at h
    · cases h
      exact trivial
    · cases h
  | choice options =>
    simp only [coerce] at h
    split at h
    · cases h
      assumption
    · cases h
  | truth =>
    simp only [coerce] at h
    split_ifs at h
    · cases h
      exact trivial
    · cases h
      exact trivial

/-! ## Going through the parameters -/

namespace ArgCheck

variable {c : ArgCheck} {p : Param} {token name : String} {tokens : List String}
  {required optional : List Param}

/-- A problem found is never forgotten. -/
theorem isOk_report (c : ArgCheck) (problem : Diagnostic) : (c.report problem).isOk = false := by
  simp [report, isOk]

/-- A parameter that got a token caused no problem just if there was none before and the token has
a value, which is then under the parameter's name. -/
theorem isOk_take_iff : (c.take p token).isOk = true ↔
    c.isOk = true ∧ ∃ value, p.coerce token = .ok value ∧
      c.take p token = { c with values := c.values.insert p.name value } := by
  unfold take
  cases p.coerce token <;> simp [isOk]

/-- Filling in a declared value is no problem. -/
theorem isOk_fill (c : ArgCheck) (p : Param) : (c.fill p).isOk = c.isOk := by
  unfold fill
  cases p.fallback <;> rfl

/-- A parameter that takes a token leaves what is under other names. -/
theorem get?_take_of_ne (h : name ≠ p.name) :
    (c.take p token).values.get? name = c.values.get? name := by
  unfold take
  cases p.coerce token with
  | ok value => simp [Arguments.get?_insert, h]
  | error problem => rfl

/-- A parameter that is filled in leaves what is under other names. -/
theorem get?_fill_of_ne (h : name ≠ p.name) : (c.fill p).values.get? name = c.values.get? name := by
  unfold fill
  cases p.fallback with
  | some value => simp [Arguments.get?_insert, h]
  | none => rfl

/-- Filling in declared values is no problem, however many there are. -/
theorem isOk_fills (c : ArgCheck) (params : List Param) : (params.foldl fill c).isOk = c.isOk := by
  induction params generalizing c with
  | nil => rfl
  | cons p rest ih => rw [List.foldl_cons, ih, isOk_fill]

/-- Nor does it touch what is under other names than theirs. -/
theorem get?_fills (h : name ∉ optional.map Param.name) :
    (optional.foldl fill c).values.get? name = c.values.get? name := by
  induction optional generalizing c with
  | nil => rfl
  | cons p rest ih =>
    rw [List.map_cons, List.mem_cons, not_or] at h
    rw [List.foldl_cons, ih h.2, get?_fill_of_ne h.1]

/-- If there is no problem after the optional parameters, there was none before them. -/
theorem isOk_of_scanOptional (h : (c.scanOptional tokens optional).isOk = true) :
    c.isOk = true := by
  induction tokens generalizing c optional with
  | nil => rwa [scanOptional, isOk_fills] at h
  | cons token tokens ih =>
    cases optional with
    | nil => simp [scanOptional, isOk_report] at h
    | cons p rest => exact (isOk_take_iff.mp (ih h)).1

/-- If there is no problem in the end, there was none at the start. -/
theorem isOk_of_scan (h : (c.scan tokens required optional).isOk = true) : c.isOk = true := by
  -- Problems are only ever added, one parameter after another.
  induction required generalizing c tokens with
  | nil =>
    rw [scan] at h
    exact isOk_of_scanOptional h
  | cons p rest ih =>
    cases tokens with
    | nil => simp [scan, isOk_report] at h
    | cons token tokens => exact (isOk_take_iff.mp (ih h)).1

/-- The optional parameters leave what is under a name that none of them has. -/
theorem get?_scanOptional (h : name ∉ optional.map Param.name) :
    (c.scanOptional tokens optional).values.get? name = c.values.get? name := by
  induction tokens generalizing c optional with
  | nil => exact get?_fills h
  | cons token tokens ih =>
    cases optional with
    | nil => rfl
    | cons p rest =>
      rw [List.map_cons, List.mem_cons, not_or] at h
      rw [scanOptional, ih h.2, get?_take_of_ne h.1]

/-- What is under a name that no parameter has stays as it is. -/
theorem get?_scan (h : name ∉ (required ++ optional).map Param.name) :
    (c.scan tokens required optional).values.get? name = c.values.get? name := by
  -- Each parameter touches its own name and no other.
  induction required generalizing c tokens with
  | nil =>
    rw [scan]
    exact get?_scanOptional h
  | cons p rest ih =>
    cases tokens with
    | nil => rfl
    | cons token tokens =>
      rw [List.cons_append, List.map_cons, List.mem_cons, not_or] at h
      rw [scan, ih h.2, get?_take_of_ne h.1]

/-- If no problem was found, every required parameter has a value of its kind under its name, as
long as parameters do not share names. -/
theorem exists_value_of_scan (once : ((required ++ optional).map Param.name).Nodup)
    (ok : (c.scan tokens required optional).isOk = true) (among : p ∈ required) :
    ∃ value, (c.scan tokens required optional).values.get? p.name = some value ∧
      value.HasKind p.kind := by
  -- The induction is on the required parameters, each of which needs a token.
  induction required generalizing c tokens with
  | nil => cases among
  | cons first rest ih =>
    cases tokens with
    | nil => simp [scan, isOk_report] at ok
    | cons token tokens =>
      rw [List.cons_append, List.map_cons, List.nodup_cons] at once
      rw [scan] at ok ⊢
      rcases List.mem_cons.mp among with rfl | later
      · -- The value is put under the name now, and no later parameter touches it.
        obtain ⟨-, value, found, taken⟩ := isOk_take_iff.mp (isOk_of_scan ok)
        refine ⟨value, ?_, Param.hasKind_of_coerce found⟩
        rw [get?_scan once.1, taken, Arguments.get?_insert, if_pos rfl]
      · exact ih once.2 ok later

end ArgCheck

/-- Arguments that pass a check have a value of the right kind for every required parameter, as
long as parameters do not share names. -/
theorem exists_value_of_checked {tokens : List String} {required optional : List Param}
    (once : ((required ++ optional).map Param.name).Nodup)
    (ok : (checkArguments tokens required optional).isOk = true) {p : Param}
    (among : p ∈ required) :
    ∃ value, (checkArguments tokens required optional).values.get? p.name = some value ∧
      value.HasKind p.kind :=
  ArgCheck.exists_value_of_scan once ok among

end Linework
