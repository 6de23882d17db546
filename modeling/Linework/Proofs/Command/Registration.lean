import Linework.Command.Builtin
import Linework.Proofs.Command.Accepted
import Linework.Proofs.Text.Cutting

/-!
# `Linework.Proofs.Command.Registration`: which commands go together, and what is said if not

The checks of a registry stop at the first fault they come upon. `Command.IsSound` lists what must
hold of a command by itself without an order, and `validate_eq_ok_iff` shows that the checks are
about that and no more. `Command.HasFault` lists the failures that a fault of a command's own can
be reported as, and `hasFault_of_validate` that no other failure comes from there.

A list of commands that does not go together has a first command with which it does not. What comes
before it goes through (`enterAll_eq_error`), so the failure is about that command: a fault of its
own, or, only if it has none, the first of its names that was used before.
-/

set_option autoImplicit false

namespace Linework

namespace Command

/-! ## A command by itself -/

/-- A command without a fault in its own names and parameters. -/
structure IsSound (c : Command) : Prop where
  /-- A line can spell every name. -/
  named : ∀ name ∈ c.names, name ≠ "" ∧ ∀ char ∈ name.toList, Text.isBlank char = false
  /-- A parameter that declares a value can be left out, so it is not a required one. -/
  demanding : ∀ p ∈ c.required, p.fallback = none
  /-- Every parameter has a name that shows. -/
  visible : ∀ p ∈ c.params, ∃ char ∈ p.name.toList, Text.isBlank char = false
  distinct : (c.params.map Param.name).Nodup
  /-- There is a word to choose wherever one must be chosen. -/
  choosable : ∀ p ∈ c.params, ∀ options, p.kind = .choice options → options ≠ []

/-- What a fault in a command's own names and parameters is reported as. -/
inductive HasFault (c : Command) : Failure → Prop where
  | name {name : String} (among : name ∈ c.names)
      (unusable : name = "" ∨ ∃ char ∈ name.toList, Text.isBlank char = true) :
      HasFault c (.invalidCommand c.name ("'" ++ name ++ "' is not a usable command name"))
  | fallback {p : Param} (among : p ∈ c.required) (declared : p.fallback ≠ none) :
      HasFault c (.invalidParam c.name p.name "required params cannot declare a default")
  | blank {p : Param} (among : p ∈ c.params)
      (blank : ∀ char ∈ p.name.toList, Text.isBlank char = true) :
      HasFault c (.invalidParam c.name p.name "param name is empty")
  | twice {before after : List Param} {p : Param} (order : c.params = before ++ p :: after)
      (again : p.name ∈ before.map Param.name) :
      HasFault c (.invalidParam c.name p.name "param name is used twice")
  | options {p : Param} (among : p ∈ c.params) (nothing : p.kind = .choice []) :
      HasFault c (.invalidParam c.name p.name "enum params need at least one option")

variable {c : Command}

/-- The check of required parameters passes if none of them declares a value. -/
theorem checkRequired_eq_ok_iff {ps : List Param} :
    c.checkRequired ps = .ok () ↔ ∀ p ∈ ps, p.fallback = none := by
  induction ps with
  | nil => simp [checkRequired]
  | cons p rest ih =>
    rw [checkRequired, List.forall_mem_cons, ← ih, ← Option.not_isSome_iff_eq_none]
    split <;> simp [*]

/-- The check of parameters passes if each has a name that shows and is new, and words to choose
from if it needs them. -/
theorem checkParams_eq_ok_iff {seen : List String} {ps : List Param} :
    c.checkParams seen ps = .ok () ↔
      (∀ p ∈ ps, ∃ char ∈ p.name.toList, Text.isBlank char = false) ∧
      (ps.map Param.name).Nodup ∧ seen.Disjoint (ps.map Param.name) ∧
      ∀ p ∈ ps, ∀ options, p.kind = .choice options → options ≠ [] := by
  -- The names seen grow by one at each parameter, so the induction is over any of them.
  induction ps generalizing seen with
  | nil => simp [checkParams]
  | cons p rest ih =>
    have visible : ¬ Text.trim p.name = "" ↔
        ∃ char ∈ p.name.toList, Text.isBlank char = false := by
      simp [Text.trim_eq_empty_iff]
    have choosable : ¬ p.kind = .choice [] ↔
        ∀ options, p.kind = .choice options → options ≠ [] := by
      constructor
      · rintro some options kind rfl
        exact some kind
      · exact fun all kind => all [] kind rfl
    rw [checkParams, List.forall_mem_cons, List.forall_mem_cons, List.map_cons, List.nodup_cons,
      List.disjoint_cons_right, ← visible, ← choosable]
    split_ifs with blank again nothing
    · simp [blank]
    · simp [again]
    · simp [nothing]
    · rw [ih, List.disjoint_cons_left, and_iff_right blank, and_iff_right again,
        and_iff_right nothing]
      constructor
      · rintro ⟨visible, distinct, ⟨fresh, apart⟩, choosable⟩
        exact ⟨visible, ⟨fresh, distinct⟩, apart, choosable⟩
      · rintro ⟨visible, ⟨fresh, distinct⟩, apart, choosable⟩
        exact ⟨visible, distinct, ⟨fresh, apart⟩, choosable⟩

/-- The checks pass if the command is sound, and in no other case. -/
theorem validate_eq_ok_iff : c.validate = .ok () ↔ c.IsSound := by
  constructor
  · intro valid
    obtain ⟨_, names, rest⟩ := check_bind_eq_ok_iff.mp valid
    obtain ⟨_, required, params⟩ := check_bind_eq_ok_iff.mp rest
    obtain ⟨visible, distinct, -, choosable⟩ := checkParams_eq_ok_iff.mp params
    exact ⟨fun name among => isUsableName_iff.mp (checkNames_eq_ok_iff.mp names name among),
      checkRequired_eq_ok_iff.mp required, visible, distinct, choosable⟩
  · intro sound
    have names : c.checkNames c.names = .ok () := checkNames_eq_ok_iff.mpr fun name among =>
      isUsableName_iff.mpr (sound.named name among)
    have required : c.checkRequired c.required = .ok () :=
      checkRequired_eq_ok_iff.mpr sound.demanding
    have params : c.checkParams [] c.params = .ok () := checkParams_eq_ok_iff.mpr
      ⟨sound.visible, sound.distinct, List.disjoint_nil_left _, sound.choosable⟩
    exact check_bind_eq_ok_iff.mpr ⟨(), names, check_bind_eq_ok_iff.mpr ⟨(), required, params⟩⟩

/-- The check of names fails with the fault of a name. -/
theorem hasFault_of_checkNames {ns : List String} {e : Failure}
    (failed : c.checkNames ns = .error e) (names : ∀ name ∈ ns, name ∈ c.names) : c.HasFault e := by
  induction ns with
  | nil => cases failed
  | cons name rest ih =>
    obtain ⟨among, others⟩ := List.forall_mem_cons.mp names
    rw [checkNames] at failed
    split at failed
    · exact ih failed others
    · rename_i unusable
      cases failed
      rw [isUsableName_iff, not_and_or, not_not] at unusable
      exact .name among (by simpa using unusable)

/-- The check of required parameters fails with the fault of one of them. -/
theorem hasFault_of_checkRequired {ps : List Param} {e : Failure}
    (failed : c.checkRequired ps = .error e) (required : ∀ p ∈ ps, p ∈ c.required) :
    c.HasFault e := by
  induction ps with
  | nil => cases failed
  | cons p rest ih =>
    obtain ⟨among, others⟩ := List.forall_mem_cons.mp required
    rw [checkRequired] at failed
    split at failed
    · rename_i declared
      cases failed
      exact .fallback among (Option.isSome_iff_ne_none.mp declared)
    · exact ih failed others

/-- Parameters are checked from the front, so those before the ones left have been seen. -/
theorem hasFault_of_checkParams {seen : List String} (before : List Param) {ps : List Param}
    {e : Failure} (failed : c.checkParams seen ps = .error e) (params : c.params = before ++ ps)
    (known : ∀ name, name ∈ seen ↔ name ∈ before.map Param.name) : c.HasFault e := by
  induction ps generalizing seen before with
  | nil => cases failed
  | cons p rest ih =>
    have among : p ∈ c.params := by simp [params]
    rw [checkParams] at failed
    split_ifs at failed with blank again nothing
    · cases failed
      exact .blank among (Text.trim_eq_empty_iff.mp blank)
    · cases failed
      exact .twice params ((known p.name).mp again)
    · cases failed
      exact .options among nothing
    · refine ih (before ++ [p]) failed (by simpa using params) fun name => ?_
      simp [known, or_comm]

/-- A command that is not valid fails with one of its own faults. -/
theorem hasFault_of_validate {e : Failure} (failed : c.validate = .error e) : c.HasFault e := by
  rcases check_bind_eq_error_iff.mp failed with names | ⟨_, -, failed⟩
  · exact hasFault_of_checkNames names fun _ among => among
  rcases check_bind_eq_error_iff.mp failed with required | ⟨_, -, params⟩
  · exact hasFault_of_checkRequired required fun _ among => among
  · exact hasFault_of_checkParams [] params rfl (by simp)

end Command

/-! ## Commands together -/

namespace Registry

/-- The first of the command's names that was used before, be it by a command before this one or by
this one. -/
def Clashes (before : List Command) (c : Command) (name : String) : Prop :=
  ∃ earlier later, c.names = earlier ++ name :: later ∧
    (before.flatMap Command.names ++ earlier).Nodup ∧ name ∈ before.flatMap Command.names ++ earlier

/-- Names are entered up to the first that is there already. -/
theorem enterNames_eq_error {position : Nat} {index : Index} {ns : List String} {e : Failure}
    (failed : enterNames position index ns = .error e) :
    ∃ earlier name later all, ns = earlier ++ name :: later ∧
      enterNames position index earlier = .ok all ∧ name ∈ all.map Prod.fst ∧
      e = .duplicateCommand name := by
  induction ns generalizing index with
  | nil => cases failed
  | cons name rest ih =>
    rw [enterNames] at failed
    split at failed
    · rename_i taken
      cases failed
      exact ⟨[], name, rest, index, rfl, rfl, taken, rfl⟩
    · rename_i free
      obtain ⟨earlier, clash, later, all, rfl, entered, taken, rfl⟩ := ih failed
      refine ⟨name :: earlier, clash, later, all, rfl, ?_, taken, rfl⟩
      rw [enterNames, if_neg free, entered]

/-- Commands are entered up to the first that is not valid or has a name that is there already. -/
theorem enterAll_eq_error {position : Nat} {index : Index} {commands : List Command} {e : Failure}
    (failed : enterAll position index commands = .error e) :
    ∃ before c after all, commands = before ++ c :: after ∧
      enterAll position index before = .ok all ∧
      (c.validate = .error e ∨ c.validate = .ok () ∧
        enterNames (position + before.length) all c.names = .error e) := by
  -- The first command fails by itself, or in its names, or leaves the failure to the commands
  -- after it.
  induction commands generalizing position index with
  | nil => cases failed
  | cons c rest ih =>
    rcases check_bind_eq_error_iff.mp failed with invalid | ⟨_, valid, failed⟩
    · exact ⟨[], c, rest, index, rfl, rfl, .inl invalid⟩
    rcases check_bind_eq_error_iff.mp failed with clash | ⟨index', entered, failed⟩
    · exact ⟨[], c, rest, index, rfl, rfl, .inr ⟨valid, clash⟩⟩
    obtain ⟨before, d, after, all, rfl, passed, fault⟩ := ih failed
    refine ⟨c :: before, d, after, all, rfl, ?_, ?_⟩
    · exact check_bind_eq_ok_iff.mpr ⟨_, valid, check_bind_eq_ok_iff.mpr ⟨_, entered, passed⟩⟩
    · rwa [List.length_cons, ← Nat.add_assoc, Nat.add_right_comm]

/-- A registry fails as the commands do when they are entered. -/
theorem build_eq_error_iff {commands : List Command} {e : Failure} :
    build commands = .error e ↔ enterAll 0 [] commands = .error e := by
  rw [build, check_bind_eq_error_iff]
  simp [pure, Except.pure]

/-- The names of a command that cannot be entered clash with those before, and it is the first of
them that is reported. -/
theorem clashes_of_enterNames {before : List Command} {c : Command} {position : Nat} {e : Failure}
    (once : (before.flatMap Command.names).Nodup)
    (failed : enterNames position (entries 0 before) c.names = .error e) :
    ∃ name, Clashes before c name ∧ e = .duplicateCommand name := by
  obtain ⟨earlier, name, later, all, order, entered, taken, rfl⟩ := enterNames_eq_error failed
  obtain ⟨onceEarlier, apart, rfl⟩ := enterNames_eq_ok_iff.mp entered
  rw [map_fst_entries] at apart
  rw [List.map_append, map_fst_entries, map_fst_entered] at taken
  exact ⟨name, ⟨earlier, later, order, once.append onceEarlier apart, taken⟩, rfl⟩

/-- A name leads nowhere if no command goes by it. -/
theorem lookup?_eq_none_iff {r : Registry} {name : String} :
    r.lookup? name = none ↔ ∀ c ∈ r.commands, name ∉ c.names := by
  simp [lookup?_eq_find?]

/-- In a registry a name leads to a command exactly if the command goes by it. -/
theorem lookup?_eq_some_iff_of_build {commands : List Command} {r : Registry}
    (built : build commands = .ok r) {name : String} {c : Command} :
    r.lookup? name = some c ↔ c ∈ commands ∧ name ∈ c.names := by
  constructor
  · intro found
    obtain ⟨-, -, rfl⟩ := build_eq_ok_iff.mp built
    rw [lookup?_eq_find?] at found
    exact ⟨List.mem_of_find?_eq_some found, by simpa using List.find?_some found⟩
  · exact fun ⟨among, named⟩ => lookup?_of_build built among named

/-- A list of commands makes up a registry just if every command is sound and no name is there twice
over all of them. The registry has the commands as they were given, with the index that the check
ends with, and its names call the commands that go by them, no two commands by the same name.
Otherwise there is a first command that does not fit what comes before it. If it is not sound, a
fault of its own is reported, and else the first of its names that was used before. -/
theorem build_registers_names (commands : List Command) :
    ((∃ r, build commands = .ok r) ↔
      (∀ c ∈ commands, c.IsSound) ∧ (commands.flatMap Command.names).Nodup) ∧
    (∀ r, build commands = .ok r →
      r.commands = commands ∧ enterAll 0 [] commands = .ok r.index ∧
      (∀ s c, r.lookup? s = some c ↔ c ∈ commands ∧ (s = c.name ∨ s ∈ c.aliases)) ∧
      (∀ s, r.lookup? s = none ↔ ∀ c ∈ commands, s ≠ c.name ∧ s ∉ c.aliases) ∧
      commands.Pairwise fun c d => c.names.Disjoint d.names) ∧
    (∀ e, build commands = .error e →
      ∃ before c after, commands = before ++ c :: after ∧ build before = .ok ⟨before⟩ ∧
        (¬ c.IsSound ∧ c.HasFault e ∨
          c.IsSound ∧ ∃ name, Clashes before c name ∧ e = .duplicateCommand name)) := by
  have sound : (∀ c ∈ commands, c.validate = .ok ()) ↔ ∀ c ∈ commands, c.IsSound := by
    simp only [Command.validate_eq_ok_iff]
  refine ⟨?_, ?_, ?_⟩
  · simp only [build_eq_ok_iff, sound, exists_and_left, exists_eq, and_true]
  · intro r built
    obtain ⟨valid, once, rfl⟩ := build_eq_ok_iff.mp built
    refine ⟨rfl, ?_, fun s c => ?_, fun s => ?_, (List.nodup_flatMap.mp once).2⟩
    · exact enterAll_eq_ok_iff.mpr ⟨valid, once, List.disjoint_nil_left _, rfl⟩
    · rw [lookup?_eq_some_iff_of_build built, Command.names, List.mem_cons]
    · simp only [lookup?_eq_none_iff, Command.names, List.mem_cons, not_or, ne_eq]
  · intro e failed
    obtain ⟨before, c, after, all, order, passed, fault⟩ :=
      enterAll_eq_error (build_eq_error_iff.mp failed)
    obtain ⟨valid, once, -, rfl⟩ := enterAll_eq_ok_iff.mp passed
    refine ⟨before, c, after, order, build_eq_ok_iff.mpr ⟨valid, once, rfl⟩, ?_⟩
    -- A fault of the command's own is looked for before a clash.
    rcases fault with invalid | ⟨own, clash⟩
    · refine .inl ⟨fun whole => ?_, Command.hasFault_of_validate invalid⟩
      rw [Command.validate_eq_ok_iff.mpr whole] at invalid
      cases invalid
    · exact .inr ⟨Command.validate_eq_ok_iff.mp own, clashes_of_enterNames once clash⟩

/-- A command by a name that another one has. -/
def clashing : Command := { Command.line with name := "h", aliases := [] }

/-- The same, and by a name besides that no line can spell. -/
def unspelled : Command := { clashing with aliases := ["two words"] }

/-- With both wrong the failure is about the name that cannot be spelled. Without that name it is
about the one that was used before. -/
theorem build_registers_names_but_unspelled :
    let r : Registry := ⟨[.horizontalLine, .line]⟩
    let reason := Failure.invalidCommand "h" "'two words' is not a usable command name"
    (build [.horizontalLine, .line] = .ok r ∧
      r.lookup? "x" = some .horizontalLine ∧ r.lookup? "X" = none) ∧
    (build [.horizontalLine, unspelled, .line] = .error reason ∧
      ∃ before c after, [.horizontalLine, unspelled, .line] = before ++ c :: after ∧
        build before = .ok ⟨before⟩ ∧ ¬ c.IsSound ∧ c.HasFault reason) ∧
    (build [.horizontalLine, clashing, .line] = .error (.duplicateCommand "h") ∧
      ∃ before c after, [.horizontalLine, clashing, .line] = before ++ c :: after ∧
        build before = .ok ⟨before⟩ ∧ c.IsSound ∧ Clashes before c "h") := by
  intro r reason
  have built : build [.horizontalLine, .line] = .ok r := by rfl
  have refused : build [.horizontalLine, unspelled, .line] = .error reason := by rfl
  have taken : build [.horizontalLine, clashing, .line] = .error (.duplicateCommand "h") := by rfl
  obtain ⟨-, -, found, missed, -⟩ := (build_registers_names [.horizontalLine, .line]).2.1 r built
  refine ⟨⟨built, (found _ _).mpr ⟨by simp, by decide⟩, (missed _).mpr (by decide)⟩,
    ⟨refused, ?_⟩, taken, ?_⟩
  · obtain ⟨before, c, after, order, passed, own | ⟨-, name, -, clash⟩⟩ :=
      (build_registers_names _).2.2 _ refused
    · exact ⟨before, c, after, order, passed, own⟩
    · exact absurd clash (by simp [reason])
  · obtain ⟨before, c, after, order, passed, ⟨-, own⟩ | ⟨sound, name, clash, same⟩⟩ :=
      (build_registers_names _).2.2 _ taken
    · cases own
    · cases same
      exact ⟨before, c, after, order, passed, sound, clash⟩

end Registry

end Linework
