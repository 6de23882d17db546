import Linework.Json.Basic
import Linework.Proofs.Json.Quoting
import Mathlib.Data.List.Induction
import Mathlib.Data.List.Nodup

/-!
# `Linework.Proofs.Json.Fields`: the fields of objects

`Json.field?` looks a field up by its name. In an object whose fields were ordered by name it
finds what it would find in the list that they came from, the last of those that share a name
(`Json.field?_sortedRecord`). So where no two share one, there is a field for each entry of the
list and no other (`Json.sortFields_perm`).
-/

set_option autoImplicit false

namespace Linework

/-! ## Entries by name -/

/-- What is found in a list that has an entry more. -/
theorem lookup_entry {α : Type} (name other : String) (value : α) (rest : List (String × α)) :
    List.lookup other ((name, value) :: rest)
      = if other = name then some value else rest.lookup other := by
  rw [List.lookup_cons]
  by_cases same : other = name
  · simp [same]
  · simp [same, beq_false_of_ne same]

/-- Where no two entries share a name, each is found by its own. -/
theorem lookup_of_mem {α : Type} {entries : List (String × α)}
    (once : (entries.map Prod.fst).Nodup) {name : String} {value : α}
    (among : (name, value) ∈ entries) : entries.lookup name = some value := by
  obtain ⟨before, after, rfl⟩ := List.append_of_mem among
  rw [List.map_append, List.map_cons, List.nodup_append] at once
  refine List.lookup_eq_some_iff.mpr ⟨before, after, rfl, fun entry earlier => ?_⟩
  rw [bne_iff_ne]
  exact (once.2.2 entry.1 (List.mem_map_of_mem earlier) name List.mem_cons_self).symm

/-! ## Fields of objects -/

namespace Json

/-- The field of an object under a name. -/
def field? (v : Json) (name : String) : Option Json :=
  match v with
  | .object fields => fields.lookup (quote name)
  | _ => none

/-- The fields of a record are found as in the list that it is made of, for quoting confuses no
names. -/
theorem field?_record (fields : List (String × Json)) (name : String) :
    (record fields).field? name = fields.lookup name := by
  simp only [record, field?]
  induction fields with
  | nil => rfl
  | cons field rest ih =>
    rw [List.map_cons, List.lookup_cons, List.lookup_cons, ih]
    by_cases same : name = field.1
    · simp [same]
    · have other : quote name ≠ quote field.1 := fun quoted => same (quote_inj quoted)
      simp [beq_false_of_ne same, beq_false_of_ne other]

/-- What is found in ordered fields with one more value. -/
theorem lookup_insertField (name other : String) (value : Json) (fields : List (String × Json)) :
    (insertField name value fields).lookup other
      = if other = name then some value else fields.lookup other := by
  induction fields with
  | nil => rw [insertField, lookup_entry]
  | cons field rest ih =>
    obtain ⟨first, former⟩ := field
    by_cases found : name = first
    · -- The former value of the name is gone.
      rw [insertField, if_pos found, ← found, lookup_entry, lookup_entry]
      split_ifs <;> rfl
    · rw [insertField, if_neg found]
      split_ifs with before here there
      · rw [lookup_entry, if_pos here]
      · rw [lookup_entry, if_neg here]
      · rw [lookup_entry, ih, if_pos there, if_neg fun same => found (there.symm.trans same)]
      · rw [lookup_entry, lookup_entry, ih, if_neg there]

/-- The last field of a list is put among the others when they are ordered. -/
theorem sortFields_concat (fields : List (String × Json)) (name : String) (value : Json) :
    sortFields (fields ++ [(name, value)]) = insertField name value (sortFields fields) := by
  rw [sortFields, List.foldl_concat]
  rfl

/-- Ordered fields are found as in the list that they came from, the last under a name first. -/
theorem field?_sortedRecord (fields : List (String × Json)) (name : String) :
    (sortedRecord fields).field? name = fields.reverse.lookup name := by
  rw [sortedRecord, field?_record]
  -- Fields are put in from the front, so the last of the list is the last that is put in.
  induction fields using List.reverseRecOn with
  | nil => rfl
  | append_singleton fields field ih =>
    obtain ⟨last, value⟩ := field
    rw [sortFields_concat, lookup_insertField, ih, List.reverse_append, List.reverse_singleton,
      List.singleton_append, lookup_entry]

/-- A new field is put among the others, and none of them is lost. -/
theorem insertField_perm {name : String} {fields : List (String × Json)}
    (new : name ∉ fields.map Prod.fst) (value : Json) :
    (insertField name value fields).Perm ((name, value) :: fields) := by
  induction fields with
  | nil => exact .refl _
  | cons field rest ih =>
    obtain ⟨first, former⟩ := field
    rw [List.map_cons, List.mem_cons, not_or] at new
    rw [insertField, if_neg new.1]
    split_ifs
    · exact .refl _
    · exact ((ih new.2).cons _).trans (.swap ..)

/-- Where no two fields share a name, ordering them loses none. -/
theorem sortFields_perm {fields : List (String × Json)} (once : (fields.map Prod.fst).Nodup) :
    (sortFields fields).Perm fields := by
  induction fields using List.reverseRecOn with
  | nil => exact .refl _
  | append_singleton fields field ih =>
    obtain ⟨last, value⟩ := field
    rw [List.map_append, List.map_singleton, List.nodup_append] at once
    have before := ih once.1
    -- The last field takes no other's place.
    have new : last ∉ (sortFields fields).map Prod.fst := by
      rw [(before.map Prod.fst).mem_iff]
      exact fun among => once.2.2 last among last (List.mem_singleton_self last) rfl
    rw [sortFields_concat]
    exact (insertField_perm new value).trans
      ((before.cons _).trans (List.perm_append_singleton _ _).symm)

end Json

end Linework
