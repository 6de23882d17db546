import Linework.Command.Registry
import Mathlib.Data.List.Nodup

/-!
# `Linework.Proofs.Command.Accepted`: what it takes to be a registry

A registry is built command by command, and the names of each are entered into the index of those
before it. What comes out of it is said here of the whole list: every command is valid by itself, no
name is there twice over all commands, and the index has every name with the place of its command
(`enterAll_eq_ok_iff`, `build_eq_ok_iff`).

So a name calls the command that goes by it, whatever other commands there are (`lookup?_of_build`).
-/

set_option autoImplicit false

namespace Linework

/-- Two checks in a row go well just if both do. -/
theorem check_bind_eq_ok_iff {ε α β : Type} {x : Except ε α} {f : α → Except ε β} {b : β} :
    (x >>= f) = .ok b ↔ ∃ a, x = .ok a ∧ f a = .ok b := by
  cases x <;> simp [bind, Except.bind]

/-- Two checks in a row fail with what the first fails with or, if that goes well, the second. -/
theorem check_bind_eq_error_iff {ε α β : Type} {x : Except ε α} {f : α → Except ε β} {e : ε} :
    (x >>= f) = .error e ↔ x = .error e ∨ ∃ a, x = .ok a ∧ f a = .error e := by
  cases x <;> simp [bind, Except.bind]

namespace Command

/-- The check of names passes if each of them is usable. -/
theorem checkNames_eq_ok_iff {c : Command} {ns : List String} :
    c.checkNames ns = .ok () ↔ ∀ name ∈ ns, isUsableName name = true := by
  induction ns with
  | nil => simp [checkNames]
  | cons name rest ih =>
    rw [checkNames, List.forall_mem_cons]
    split
    · simp [*]
    · simp [*]

/-- A line can spell the names of a valid command. -/
theorem isUsableName_of_validate {c : Command} (valid : c.validate = .ok ()) {name : String}
    (named : name ∈ c.names) : isUsableName name = true := by
  obtain ⟨_, spelled, -⟩ := check_bind_eq_ok_iff.mp valid
  exact checkNames_eq_ok_iff.mp spelled name named

end Command

namespace Registry

/-- Names are entered if they are all new, also to each other, and then they come last in the
index. -/
theorem enterNames_eq_ok_iff {position : Nat} {index all : Index} {ns : List String} :
    enterNames position index ns = .ok all ↔ ns.Nodup ∧ (index.map Prod.fst).Disjoint ns ∧
      all = index ++ ns.map (·, position) := by
  induction ns generalizing index with
  | nil => simp [enterNames, eq_comm]
  | cons name rest ih =>
    rw [enterNames]
    split
    · simp_all [List.disjoint_cons_right]
    · rename_i free
      -- The name is entered for the rest, so it must not be among them.
      simp [ih, free, List.disjoint_cons_right, List.disjoint_append_left, and_assoc, and_left_comm]

/-- Commands are entered if each of them is valid and all their names are new, also to each
other. -/
theorem enterAll_eq_ok_iff {position : Nat} {index all : Index} {commands : List Command} :
    enterAll position index commands = .ok all ↔ (∀ c ∈ commands, c.validate = .ok ()) ∧
      (commands.flatMap Command.names).Nodup ∧
      (index.map Prod.fst).Disjoint (commands.flatMap Command.names) ∧
      all = index ++ entries position commands := by
  -- The induction is on the commands, from any place on and after any index.
  induction commands generalizing position index with
  | nil => simp [enterAll, entries, eq_comm]
  | cons c rest ih =>
    rw [enterAll]
    simp only [check_bind_eq_ok_iff, enterNames_eq_ok_iff, ih, List.forall_mem_cons,
      List.flatMap_cons, List.nodup_append', List.disjoint_append_right, entries_cons]
    constructor
    · rintro ⟨_, valid, _, ⟨once, free, rfl⟩, others, onceOthers, apart, rfl⟩
      rw [List.map_append, map_fst_entered, List.disjoint_append_left] at apart
      exact ⟨⟨valid, others⟩, ⟨once, onceOthers, apart.2⟩, ⟨free, apart.1⟩,
        List.append_assoc _ _ _⟩
    · rintro ⟨⟨valid, others⟩, ⟨once, onceOthers, apart⟩, ⟨free, freeOthers⟩, rfl⟩
      refine ⟨(), valid, _, ⟨once, free, rfl⟩, others, onceOthers, ?_,
        (List.append_assoc _ _ _).symm⟩
      rw [List.map_append, map_fst_entered, List.disjoint_append_left]
      exact ⟨freeOthers, apart⟩

/-- Commands make up a registry just if each of them is valid and no two names are the same. -/
theorem build_eq_ok_iff {commands : List Command} {r : Registry} :
    build commands = .ok r ↔ (∀ c ∈ commands, c.validate = .ok ()) ∧
      (commands.flatMap Command.names).Nodup ∧ r = ⟨commands⟩ := by
  rw [build, check_bind_eq_ok_iff]
  constructor
  · rintro ⟨_, entered, same⟩
    cases same
    obtain ⟨valid, once, -, -⟩ := enterAll_eq_ok_iff.mp entered
    exact ⟨valid, once, rfl⟩
  · rintro ⟨valid, once, rfl⟩
    exact ⟨_, enterAll_eq_ok_iff.mpr ⟨valid, once, List.disjoint_nil_left _, rfl⟩, rfl⟩

/-- In a registry a name calls the command that goes by it. -/
theorem lookup?_of_build {commands : List Command} {r : Registry} (built : build commands = .ok r)
    {c : Command} (among : c ∈ commands) {name : String} (named : name ∈ c.names) :
    r.lookup? name = some c := by
  obtain ⟨-, once, rfl⟩ := build_eq_ok_iff.mp built
  -- Names are looked up from the front, so what counts is which commands come before this one.
  obtain ⟨before, after, rfl⟩ := List.append_of_mem among
  rw [List.flatMap_append, List.nodup_append'] at once
  rw [lookup?_eq_find?]
  refine List.find?_eq_some_iff_append.mpr ⟨by simpa using named, before, after, rfl, ?_⟩
  -- No command before this one goes by the name.
  intro other earlier
  suffices name ∉ other.names by simpa using this
  exact fun same => once.2.2 (List.mem_flatMap_of_mem earlier same)
    (List.mem_flatMap_of_mem List.mem_cons_self named)

end Registry

end Linework
