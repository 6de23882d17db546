import Linework.Proofs.Argument.Problems
import Mathlib.Data.List.Induction

/-!
# `Linework.Proofs.Argument.Bindings`: the values that a check hands over

A check keeps every value it comes by, also when it has found problems, and it puts each under the
name of its parameter as soon as it has it. Names may come up more than once, so what stands under
a name in the end depends on the order.

`checkedBindings` lists names and values in that order without going through the check: the values
of the tokens first, and then the declared values of the parameters that are left, unless a
required parameter is among them. `values_scan` shows that a check has inserted exactly these, one
after another.

What comes of a list that is inserted is told by two equations. The names are those of the list,
each at its first place (`keys_ofList`), and under each stands its last value (`get?_ofList`). If
no name comes up twice, the list itself is what comes of it (`entries_ofList`), so a check that
finds nothing wrong has its names in the order of the parameters (`check_binds_in_order`).
-/

set_option autoImplicit false

namespace Linework

/-! ## Inserting one value after another -/

namespace Arguments

/-- The names, in the order of their first appearance. -/
def keys (args : Arguments) : List String := args.entries.map Prod.fst

/-- The last value of a list is inserted after all the others. -/
theorem ofList_concat (entries : List (String × ArgValue)) (name : String) (value : ArgValue) :
    ofList (entries ++ [(name, value)]) = (ofList entries).insert name value := by
  show List.foldl _ empty (entries ++ [(name, value)]) = _
  rw [List.foldl_concat]
  rfl

/-- A name in use keeps its place, and a new one comes last. -/
theorem map_fst_insertEntry (name : String) (value : ArgValue)
    (entries : List (String × ArgValue)) :
    (insertEntry name value entries).map Prod.fst
      = if name ∈ entries.map Prod.fst then entries.map Prod.fst
        else entries.map Prod.fst ++ [name] := by
  induction entries with
  | nil => rfl
  | cons entry rest ih =>
    obtain ⟨first, former⟩ := entry
    by_cases found : first = name
    · simp [insertEntry, found]
    · rw [insertEntry, if_neg found, List.map_cons, ih]
      have other : name ≠ first := fun same => found same.symm
      -- The name is not the first one, so it is in use if it comes up later.
      by_cases later : name ∈ rest.map Prod.fst
      · simp only [List.map_cons, List.mem_cons, later, or_true, if_true]
      · simp only [List.map_cons, List.mem_cons, other, later, or_self, if_false,
          List.cons_append]

/-- A name that comes up at the end of a list is a new one only where it is not in the list. -/
theorem eraseDups_concat (names : List String) (name : String) :
    (names ++ [name]).eraseDups
      = if name ∈ names then names.eraseDups else names.eraseDups ++ [name] := by
  rw [List.eraseDups_append]
  by_cases among : name ∈ names
  · simp [List.removeAll, among]
  · simp [List.removeAll, among, List.eraseDups_cons]

/-- Of values inserted one after another, the names are there in the order in which they first came
up. -/
theorem keys_ofList (entries : List (String × ArgValue)) :
    (ofList entries).keys = (entries.map Prod.fst).eraseDups := by
  -- The last value to be inserted decides nothing but whether its own name is new.
  induction entries using List.reverseRecOn with
  | nil => rfl
  | append_singleton entries entry ih =>
    obtain ⟨name, value⟩ := entry
    show ((ofList (entries ++ [(name, value)])).entries.map Prod.fst) = _
    rw [ofList_concat, insert, map_fst_insertEntry]
    change (if name ∈ (ofList entries).keys then (ofList entries).keys
      else (ofList entries).keys ++ [name]) = _
    rw [ih, List.map_append, List.map_singleton, eraseDups_concat]
    simp only [List.mem_eraseDups]

/-- Of values inserted under one name, the last is there. -/
theorem get?_ofList (entries : List (String × ArgValue)) (name : String) :
    (ofList entries).get? name = entries.reverse.lookup name := by
  induction entries using List.reverseRecOn with
  | nil => rfl
  | append_singleton entries entry ih =>
    obtain ⟨last, value⟩ := entry
    rw [ofList_concat, get?_insert, List.reverse_append, List.reverse_singleton,
      List.singleton_append, lookup_entry, ih]

/-- A new name comes last. -/
theorem insertEntry_of_not_mem {name : String} {entries : List (String × ArgValue)}
    (new : name ∉ entries.map Prod.fst) (value : ArgValue) :
    insertEntry name value entries = entries ++ [(name, value)] := by
  -- The list is gone through to its end, for no entry on the way has the name.
  induction entries with
  | nil => rfl
  | cons entry rest ih =>
    rw [List.map_cons, List.mem_cons, not_or] at new
    rw [insertEntry, if_neg fun same => new.1 same.symm, ih new.2, List.cons_append]

/-- Where no name comes up twice, the values are there as they were inserted. -/
theorem entries_ofList {entries : List (String × ArgValue)}
    (once : (entries.map Prod.fst).Nodup) : (ofList entries).entries = entries := by
  induction entries using List.reverseRecOn with
  | nil => rfl
  | append_singleton entries entry ih =>
    obtain ⟨name, value⟩ := entry
    rw [List.map_append, List.map_singleton, List.nodup_append] at once
    have before := ih once.1
    have new : name ∉ entries.map Prod.fst := by
      intro among
      exact once.2.2 name among name (List.mem_singleton_self name) rfl
    rw [ofList_concat, insert, before]
    exact insertEntry_of_not_mem new value

/-- A name has a value exactly if it is among the names. -/
theorem isSome_get?_iff (args : Arguments) (name : String) :
    (args.get? name).isSome = true ↔ name ∈ args.keys := by
  rw [get?, List.lookup_isSome_iff, keys, List.mem_map]
  constructor
  · intro ⟨entry, among, same⟩
    exact ⟨entry, among, (eq_of_beq same).symm⟩
  · intro ⟨entry, among, same⟩
    exact ⟨entry, among, beq_iff_eq.mpr same.symm⟩

end Arguments

/-! ## What is inserted -/

/-- A token's value under the name of its parameter, if the token has one. -/
def Param.binding? (p : Param) (token : String) : Option (String × ArgValue) :=
  match p.coerce token with
  | .ok value => some (p.name, value)
  | .error _ => none

/-- A parameter's declared value under its name, if it declares one. -/
def Param.fallbackBinding? (p : Param) : Option (String × ArgValue) :=
  p.fallback.map fun value => (p.name, value)

/-- The values of tokens under the parameters at their positions, as far as there are both. -/
def tokenBindings (tokens : List String) (params : List Param) : List (String × ArgValue) :=
  (tokens.zip params).filterMap fun pair => pair.2.binding? pair.1

/-- The declared values of parameters. -/
def fallbackBindings (params : List Param) : List (String × ArgValue) :=
  params.filterMap Param.fallbackBinding?

/-- All that a check inserts. Declared values are for the parameters past the last token, and if
there is a required one among these, there are none. -/
def checkedBindings (tokens : List String) (required optional : List Param) :
    List (String × ArgValue) :=
  tokenBindings tokens (required ++ optional) ++
    if required.length ≤ tokens.length then
      fallbackBindings ((required ++ optional).drop tokens.length)
    else []

/-- A token with a value puts it before those of the tokens after it. -/
theorem tokenBindings_cons (token : String) (tokens : List String) (p : Param)
    (params : List Param) : tokenBindings (token :: tokens) (p :: params)
      = (p.binding? token).toList ++ tokenBindings tokens params := by
  simp only [tokenBindings, List.zip_cons_cons, List.filterMap_cons]
  cases p.binding? token <;> rfl

/-- A parameter that declares a value puts it before those of the parameters after it. -/
theorem fallbackBindings_cons (p : Param) (params : List Param) :
    fallbackBindings (p :: params) = p.fallbackBinding?.toList ++ fallbackBindings params := by
  simp only [fallbackBindings, List.filterMap_cons]
  cases p.fallbackBinding? <;> rfl

namespace ArgCheck

open Arguments

variable {c : ArgCheck} {before : List (String × ArgValue)}

/-- A parameter that takes a token inserts the value of the token, if it has one. -/
theorem values_take (h : c.values = ofList before) (p : Param) (token : String) :
    (c.take p token).values = ofList (before ++ (p.binding? token).toList) := by
  unfold take Param.binding?
  cases p.coerce token with
  | ok value => exact (congrArg (·.insert p.name value) h).trans (ofList_concat ..).symm
  | error problem => simpa using h

/-- A parameter without a token inserts the value that it declares, if it declares one. -/
theorem values_fill (h : c.values = ofList before) (p : Param) :
    (c.fill p).values = ofList (before ++ p.fallbackBinding?.toList) := by
  unfold fill Param.fallbackBinding?
  cases p.fallback with
  | some value => exact (congrArg (·.insert p.name value) h).trans (ofList_concat ..).symm
  | none => simpa using h

/-- Parameters without tokens insert the values that they declare. -/
theorem values_fills (h : c.values = ofList before) (params : List Param) :
    (params.foldl fill c).values = ofList (before ++ fallbackBindings params) := by
  induction params generalizing c before with
  | nil => simpa [fallbackBindings] using h
  | cons p rest ih =>
    rw [List.foldl_cons, ih (values_fill h p), fallbackBindings_cons, List.append_assoc]

/-- Optional parameters insert the values of the tokens that are left, and then those that the
rest of them declare. -/
theorem values_scanOptional (h : c.values = ofList before) (tokens : List String)
    (optional : List Param) :
    (c.scanOptional tokens optional).values = ofList (before ++
      (tokenBindings tokens optional ++ fallbackBindings (optional.drop tokens.length))) := by
  induction tokens generalizing c before optional with
  | nil => exact values_fills h optional
  | cons token tokens ih =>
    cases optional with
    | nil =>
      -- Tokens past the last parameter have no value.
      simpa [scanOptional, report, tokenBindings, fallbackBindings] using h
    | cons p rest =>
      rw [scanOptional, ih (values_take h p token), tokenBindings_cons, List.length_cons,
        List.drop_succ_cons]
      simp only [List.append_assoc]

/-- A check inserts these values after those that it began with. -/
theorem values_scan (h : c.values = ofList before) (tokens : List String)
    (required optional : List Param) :
    (c.scan tokens required optional).values
      = ofList (before ++ checkedBindings tokens required optional) := by
  induction required generalizing c before tokens with
  | nil =>
    rw [scan, values_scanOptional h]
    simp [checkedBindings]
  | cons p rest ih =>
    cases tokens with
    | nil =>
      -- The scan ends at the first parameter without a token, and inserts nothing any more.
      simpa [scan, report, checkedBindings, tokenBindings] using h
    | cons token tokens =>
      rw [scan, ih (values_take h p token)]
      simp only [checkedBindings, List.cons_append, tokenBindings_cons, List.length_cons,
        Nat.add_le_add_iff_right, List.drop_succ_cons, List.append_assoc]

end ArgCheck

/-! ## Parameters with names of their own -/

/-- The names that a check inserts when every token has a value: those of the parameters that got
tokens, and those of the others that declare values. -/
theorem map_fst_checkedBindings {tokens : List String} {required optional : List Param}
    (enough : required.length ≤ tokens.length)
    (values : ∀ pair ∈ tokens.zip (required ++ optional),
      ∃ value, pair.2.coerce pair.1 = .ok value) :
    (checkedBindings tokens required optional).map Prod.fst
      = ((required ++ optional).take tokens.length).map Param.name ++
        (((required ++ optional).drop tokens.length).filter
          (·.fallback.isSome)).map Param.name := by
  rw [checkedBindings, if_pos enough, List.map_append]
  generalize required ++ optional = params at values ⊢
  -- The tokens give the names of the first parameters, and the declared values those of some
  -- later ones.
  congr 1
  · clear enough
    induction tokens generalizing params with
    | nil => rfl
    | cons token tokens ih =>
      cases params with
      | nil => rfl
      | cons p params =>
        rw [List.zip_cons_cons, List.forall_mem_cons] at values
        obtain ⟨⟨value, found⟩, others⟩ := values
        rw [tokenBindings_cons, List.map_append, ih params others, Param.binding?, found]
        rfl
  · generalize params.drop tokens.length = rest
    induction rest with
    | nil => rfl
    | cons p rest ih =>
      rw [fallbackBindings_cons, List.map_append, ih, Param.fallbackBinding?, List.filter_cons]
      cases p.fallback <;> rfl

/-- Among parameters with names of their own, the names that a check inserts come in the order of
the parameters. -/
theorem sublist_map_name (params : List Param) (count : Nat) :
    ((params.take count).map Param.name ++
      ((params.drop count).filter (·.fallback.isSome)).map Param.name).Sublist
        (params.map Param.name) := by
  rw [← List.map_append]
  refine List.Sublist.map _ ?_
  have parts := (List.Sublist.refl (params.take count)).append
    (List.filter_sublist (p := (·.fallback.isSome)) (l := params.drop count))
  rwa [List.take_append_drop] at parts

/-- The name of one parameter is among them if the parameter got a token or declares a value. -/
theorem name_mem_iff {params : List Param} (once : (params.map Param.name).Nodup) {i : Nat}
    (h : i < params.length) (count : Nat) :
    params[i].name ∈ (params.take count).map Param.name ++
        ((params.drop count).filter (·.fallback.isSome)).map Param.name ↔
      i < count ∨ params[i].fallback.isSome = true := by
  -- No other parameter has the name, so it is the position that counts.
  have only (j : Nat) (hj : j < params.length) (same : params[j].name = params[i].name) :
      j = i := by
    have inJ : j < (params.map Param.name).length := by rwa [List.length_map]
    have inI : i < (params.map Param.name).length := by rwa [List.length_map]
    have names : (params.map Param.name)[j] = (params.map Param.name)[i] := by
      rw [List.getElem_map, List.getElem_map, same]
    exact once.getElem_inj_iff.mp names
  rw [List.mem_append, List.map_take, List.mem_take_iff_getElem, List.mem_map]
  constructor
  · intro among
    rcases among with ⟨j, hj, same⟩ | ⟨p, later, same⟩
    · rw [List.length_map] at hj
      have same : params[j].name = params[i].name := by simpa using same
      left
      have := only j (by omega) same
      omega
    · obtain ⟨later, declares⟩ := List.mem_filter.mp later
      obtain ⟨j, hj, rfl⟩ := List.mem_drop_iff_getElem.mp later
      right
      have at_i := only (count + j) (by omega) same
      subst at_i
      exact declares
  · intro given
    by_cases early : i < count
    · left
      refine ⟨i, ?_, by simp⟩
      rw [List.length_map]
      omega
    · right
      refine ⟨params[i], List.mem_filter.mpr ⟨?_, given.resolve_left early⟩, rfl⟩
      refine List.mem_drop_iff_getElem.mpr ⟨i - count, by omega, ?_⟩
      congr 1
      omega

/-- A check that finds nothing has a token for every required parameter and a value for every
token. -/
theorem enough_of_isOk {tokens : List String} {required optional : List Param}
    (ok : (checkArguments tokens required optional).isOk = true) :
    required.length ≤ tokens.length ∧
      ∀ pair ∈ tokens.zip (required ++ optional), ∃ value, pair.2.coerce pair.1 = .ok value := by
  rw [ArgCheck.isOk, List.isEmpty_iff, checkArguments, ArgCheck.diagnostics_scan] at ok
  have none := (List.append_eq_nil_iff.mp ok).2
  rw [List.append_eq_nil_iff, tokenProblems_eq_nil_iff, Option.toList_eq_nil_iff,
    countProblem?_eq_none_iff] at none
  exact ⟨none.2.1, none.1⟩

/-- The values of a check are those of `checkedBindings`, inserted one after another: a name has the
place where it first comes up and the value that it has last. Where parameters have names of their
own and nothing is wrong, the values are in the order of the parameters, a required parameter has a
value of its kind, and an optional one has a value if it got a token or declares one. -/
theorem check_binds_in_order (tokens : List String) (required optional : List Param) :
    let values := (checkArguments tokens required optional).values
    let entries := checkedBindings tokens required optional
    values = Arguments.ofList entries ∧
    values.keys = (entries.map Prod.fst).eraseDups ∧
    (∀ name, values.get? name = entries.reverse.lookup name) ∧
    (((required ++ optional).map Param.name).Nodup →
      (checkArguments tokens required optional).isOk = true →
        values.entries = entries ∧
        values.keys.Sublist ((required ++ optional).map Param.name) ∧
        (∀ p ∈ required, ∃ value, values.get? p.name = some value ∧ value.HasKind p.kind) ∧
        ∀ (i : Nat) (h : i < optional.length), (values.get? optional[i].name).isSome = true ↔
          required.length + i < tokens.length ∨ optional[i].fallback.isSome = true) := by
  intro values entries
  have nothing : ArgCheck.start.values = Arguments.ofList [] := rfl
  have inserted : values = Arguments.ofList entries :=
    ArgCheck.values_scan nothing tokens required optional
  refine ⟨inserted, ?_, ?_, ?_⟩
  · rw [inserted]
    exact Arguments.keys_ofList entries
  · intro name
    rw [inserted]
    exact Arguments.get?_ofList entries name
  · intro once ok
    obtain ⟨enough, found⟩ := enough_of_isOk ok
    have names := map_fst_checkedBindings enough found
    have order : (entries.map Prod.fst).Sublist ((required ++ optional).map Param.name) := by
      rw [names]
      exact sublist_map_name _ _
    have same : values.entries = entries := by
      rw [inserted]
      exact Arguments.entries_ofList (once.sublist order)
    have keys : values.keys = entries.map Prod.fst := congrArg (List.map Prod.fst) same
    refine ⟨same, ?_, ?_, ?_⟩
    · rwa [keys]
    · intro p among
      exact exists_value_of_checked once ok among
    · intro i h
      -- An optional parameter comes after all the required ones.
      have later : required.length + i < (required ++ optional).length := by
        rw [List.length_append]
        omega
      have place := name_mem_iff once later tokens.length
      rw [List.getElem_append_right (by omega)] at place
      simp only [Nat.add_sub_cancel_left] at place
      rw [Arguments.isSome_get?_iff, keys, names]
      exact place

/-- A required text, an optional truth value that declares nothing, and a mode that declares one
which is not among its options. -/
def modeParams : List Param × List Param :=
  ([.plain "url" .text],
    [.plain "flip" .truth, .withFallback "mode" (.choice ["pulse", "wave"]) (.text "bogus")])

/-- With one optional argument given, its value and the declared one follow the required one. -/
theorem check_binds_in_order_of_modeParams :
    ((modeParams.1 ++ modeParams.2).map Param.name).Nodup ∧
      (checkArguments ["a.png", "1"] modeParams.1 modeParams.2).isOk = true ∧
      (checkArguments ["a.png", "1"] modeParams.1 modeParams.2).values.entries
        = [("url", .text "a.png"), ("flip", .truth true), ("mode", .text "bogus")] := by
  have once : ((modeParams.1 ++ modeParams.2).map Param.name).Nodup := by decide
  have ok : (checkArguments ["a.png", "1"] modeParams.1 modeParams.2).isOk = true := by decide
  obtain ⟨-, -, -, ordered⟩ := check_binds_in_order ["a.png", "1"] modeParams.1 modeParams.2
  exact ⟨once, ok, (ordered once ok).1⟩

end Linework
