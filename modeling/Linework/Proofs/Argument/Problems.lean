import Linework.Proofs.Argument.Checked
import Linework.Proofs.Pass.Hint

/-!
# `Linework.Proofs.Argument.Problems`: what a check reports

A check goes through tokens and parameters side by side. What it reports can be told without going
through them: `Param.problem?` is what is wrong with one token under one parameter, and
`countProblem?` what is wrong with the number of tokens.

* `diagnostics_scan`: a check adds the problems of the tokens, in order, and then that of their
  number, to what was found before.
* `Param.coerce_eq_error_iff`: a token has a problem exactly if it has no value.
* `check_tells_problems`: so a check finds nothing exactly if there are as many tokens as
  parameters, the optional ones being optional, and each has a value; and its hint is empty
  exactly then.
-/

set_option autoImplicit false

namespace Linework

/-! ## One token -/

namespace Param

/-- The problem with a token under a parameter. A parameter of each kind has one of its own, and
one that takes texts has none. -/
def problem? (p : Param) (token : String) : Option Diagnostic :=
  match p.kind with
  | .text => none
  | .number => if (parseNumber token).isSome then none else some (.notANumber p.name token)
  | .choice options =>
    if token ∈ options then none else some (.notInOptions p.name token options)
  | .truth =>
    if token ∈ ["true", "1", "false", "0"] then none else some (.notABoolean p.name token)

/-- A token has a problem or a value, and not both. -/
theorem coerce_eq (p : Param) (token : String) :
    (∃ value, p.coerce token = .ok value ∧ p.problem? token = none) ∨
      ∃ problem, p.coerce token = .error problem ∧ p.problem? token = some problem := by
  obtain ⟨name, kind, fallback⟩ := p
  -- The tests of `coerce` and of `problem?` are the same, kind by kind.
  cases kind with
  | text => exact .inl ⟨_, rfl, rfl⟩
  | number =>
    simp only [coerce, problem?]
    cases parseNumber token with
    | some value => exact .inl ⟨_, rfl, rfl⟩
    | none => exact .inr ⟨_, rfl, rfl⟩
  | choice options =>
    simp only [coerce, problem?]
    by_cases listed : token ∈ options
    · exact .inl ⟨_, if_pos listed, if_pos listed⟩
    · exact .inr ⟨_, if_neg listed, if_neg listed⟩
  | truth =>
    simp only [coerce, problem?, List.mem_cons, List.not_mem_nil, or_false]
    -- There are two spellings of each value, and the problem lists all four.
    by_cases yes : token = "true" ∨ token = "1"
    · refine .inl ⟨_, if_pos yes, if_pos ?_⟩
      exact yes.imp_right .inl
    by_cases no : token = "false" ∨ token = "0"
    · refine .inl ⟨.truth false, by rw [if_neg yes, if_pos no], if_pos ?_⟩
      exact .inr (.inr no)
    · refine .inr ⟨_, by rw [if_neg yes, if_neg no], if_neg ?_⟩
      rintro (h | h | h | h)
      · exact yes (.inl h)
      · exact yes (.inr h)
      · exact no (.inl h)
      · exact no (.inr h)

/-- A token fails under a parameter with the problem that it has there. -/
theorem coerce_eq_error_iff {p : Param} {token : String} {problem : Diagnostic} :
    p.coerce token = .error problem ↔ p.problem? token = some problem := by
  rcases p.coerce_eq token with ⟨value, found, none⟩ | ⟨other, found, some⟩
  · simp [found, none]
  · simp [found, some]

/-- A token has a value exactly if it has no problem. -/
theorem exists_coerce_iff {p : Param} {token : String} :
    (∃ value, p.coerce token = .ok value) ↔ p.problem? token = none := by
  rcases p.coerce_eq token with ⟨value, found, none⟩ | ⟨other, found, some⟩
  · simp [found, none]
  · simp [found, some]

end Param

/-! ## All tokens -/

/-- The problems with tokens under parameters, as far as there are both. -/
def tokenProblems (tokens : List String) (params : List Param) : List Diagnostic :=
  (tokens.zip params).filterMap fun pair => pair.2.problem? pair.1

/-- With a token more and a parameter more, the problem of the one comes before the others. -/
theorem tokenProblems_cons (token : String) (tokens : List String) (p : Param)
    (params : List Param) : tokenProblems (token :: tokens) (p :: params)
      = (p.problem? token).toList ++ tokenProblems tokens params := by
  simp only [tokenProblems, List.zip_cons_cons, List.filterMap_cons]
  cases p.problem? token <;> rfl

/-- The problem with a number of tokens. It is told by the first required parameter that gets no
token, or else by how many tokens are left when every parameter has one. -/
def countProblem? (count : Nat) (required optional : List Param) : Option Diagnostic :=
  if short : count < required.length then some (.missingArgument required[count].name)
  else if required.length + optional.length < count then
    some (.surplusArguments (count - (required.length + optional.length)))
  else none

/-- Past the first token and the first parameter the numbers compare as before. -/
theorem countProblem?_succ (count : Nat) (p : Param) (required optional : List Param) :
    countProblem? (count + 1) (p :: required) optional = countProblem? count required optional := by
  have sum : required.length + 1 + optional.length = required.length + optional.length + 1 := by
    omega
  simp only [countProblem?, List.length_cons, sum, Nat.add_lt_add_iff_right,
    Nat.add_sub_add_right, List.getElem_cons_succ]

/-- The same among the optional parameters. -/
theorem countProblem?_succ_optional (count : Nat) (p : Param) (optional : List Param) :
    countProblem? (count + 1) [] (p :: optional) = countProblem? count [] optional := by
  simp [countProblem?]

/-- The numbers are in order exactly if every required parameter gets a token and every token a
parameter. -/
theorem countProblem?_eq_none_iff {count : Nat} {required optional : List Param} :
    countProblem? count required optional = none ↔
      required.length ≤ count ∧ count ≤ required.length + optional.length := by
  unfold countProblem?
  split_ifs with short long
  · simp only [false_iff]
    omega
  · simp only [false_iff]
    omega
  · simp only [true_iff]
    omega

namespace ArgCheck

variable (c : ArgCheck)

/-- A parameter that takes a token reports the problem of the token, if it has one. -/
theorem diagnostics_take (p : Param) (token : String) :
    (c.take p token).diagnostics = c.diagnostics ++ (p.problem? token).toList := by
  unfold take
  rcases p.coerce_eq token with ⟨value, found, none⟩ | ⟨problem, found, some⟩
  · simp [found, none]
  · simp [found, some]

/-- Filling in declared values reports nothing. -/
theorem diagnostics_fills (params : List Param) :
    (params.foldl fill c).diagnostics = c.diagnostics := by
  induction params generalizing c with
  | nil => rfl
  | cons p rest ih =>
    rw [List.foldl_cons, ih, fill]
    cases p.fallback <;> rfl

/-- Optional parameters report the problems of the tokens that are left, and then that there are
too many of them, if so. -/
theorem diagnostics_scanOptional (tokens : List String) (optional : List Param) :
    (c.scanOptional tokens optional).diagnostics = c.diagnostics ++
      (tokenProblems tokens optional ++ (countProblem? tokens.length [] optional).toList) := by
  induction tokens generalizing c optional with
  | nil =>
    rw [scanOptional, diagnostics_fills]
    simp [tokenProblems, countProblem?]
  | cons token tokens ih =>
    cases optional with
    | nil =>
      -- The tokens left over are counted, whatever they are.
      simp [scanOptional, report, tokenProblems, countProblem?]
    | cons p rest =>
      rw [scanOptional, ih, diagnostics_take, tokenProblems_cons, List.length_cons,
        countProblem?_succ_optional]
      simp only [List.append_assoc]

/-- A check adds the problems of the tokens, in order, and then that of their number. -/
theorem diagnostics_scan (tokens : List String) (required optional : List Param) :
    (c.scan tokens required optional).diagnostics = c.diagnostics ++
      (tokenProblems tokens (required ++ optional) ++
        (countProblem? tokens.length required optional).toList) := by
  -- Required parameters and tokens are used up together, so both lists get shorter.
  induction required generalizing c tokens with
  | nil =>
    rw [scan, diagnostics_scanOptional]
    rfl
  | cons p rest ih =>
    cases tokens with
    | nil =>
      -- The scan ends here, whatever parameters follow.
      simp [scan, report, tokenProblems, countProblem?]
    | cons token tokens =>
      rw [scan, ih, diagnostics_take, List.cons_append, tokenProblems_cons, List.length_cons,
        countProblem?_succ]
      simp only [List.append_assoc]

/-- The hint is empty exactly if nothing was found: every diagnostic says something. -/
theorem hint_eq_empty_iff {c : ArgCheck} : c.hint = "" ↔ c.isOk = true := by
  constructor
  · intro empty
    by_contra found
    have blank := blank_mem_hint (Bool.eq_false_iff.mpr found)
    rw [empty] at blank
    cases blank
  · intro ok
    have none : c.diagnostics = [] := List.isEmpty_iff.mp ok
    rw [hint, none]
    rfl

end ArgCheck

/-- Tokens have no problem exactly if they all have values. -/
theorem tokenProblems_eq_nil_iff {tokens : List String} {params : List Param} :
    tokenProblems tokens params = [] ↔
      ∀ pair ∈ tokens.zip params, ∃ value, pair.2.coerce pair.1 = .ok value := by
  simp only [tokenProblems, List.filterMap_eq_nil_iff, Param.exists_coerce_iff]

/-- A check reports the problem of each token that has no value under the parameter at its
position, in order, and then, if the tokens are too few or too many, that. So it finds nothing
exactly if every required parameter has a token, every token has a parameter, and every token has
a value under its own; and exactly then its hint is empty. -/
theorem check_tells_problems (tokens : List String) (required optional : List Param) :
    let check := checkArguments tokens required optional
    (∀ (p : Param) (token : String) (problem : Diagnostic),
      p.coerce token = .error problem ↔ p.problem? token = some problem) ∧
    check.diagnostics = tokenProblems tokens (required ++ optional) ++
      (countProblem? tokens.length required optional).toList ∧
    (check.isOk = true ↔
      required.length ≤ tokens.length ∧ tokens.length ≤ required.length + optional.length ∧
        ∀ pair ∈ tokens.zip (required ++ optional),
          ∃ value, pair.2.coerce pair.1 = .ok value) ∧
    (check.hint = "" ↔ check.isOk = true) := by
  intro check
  have found : check.diagnostics = tokenProblems tokens (required ++ optional) ++
      (countProblem? tokens.length required optional).toList :=
    ArgCheck.start.diagnostics_scan tokens required optional
  refine ⟨fun p token problem => Param.coerce_eq_error_iff, found, ?_,
    ArgCheck.hint_eq_empty_iff⟩
  rw [ArgCheck.isOk, List.isEmpty_iff, found, List.append_eq_nil_iff, Option.toList_eq_nil_iff,
    countProblem?_eq_none_iff, tokenProblems_eq_nil_iff]
  constructor
  · rintro ⟨values, few, many⟩
    exact ⟨few, many, values⟩
  · rintro ⟨few, many, values⟩
    exact ⟨values, few, many⟩

end Linework
